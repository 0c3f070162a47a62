import Skirmish.Proofs.Battle.Failure
import Skirmish.Proofs.Battle.Staging
import Skirmish.Proofs.Chance

namespace Skirmish

open Fallible

theorem Scene.Scripts.known {s : Scene} {e : Event} (hs : ∀ t ∈ s.triggers, t.event.Known)
    (h : s.Scripts e) : e.Known := by
  induction h with
  | trigger ht => exact hs _ ht
  | part _ he ih =>
      cases ih with
      | multi hevents => exact hevents _ he
  | option _ ho he ih =>
      cases ih with
      | dialog hoptions => exact hoptions _ ho _ he

namespace Action

open Chance

variable {r : Rules} {roster : Roster} {actor : Fighter} {skill : Skill} {item : Item}
  {targets : List String}

def Report.IsVain (r : Report) : Prop :=
  r.success = false ∧ ∃ name, r.message = name ++ " has no effect!"

/-- The message about a cost that cannot be paid ends in a bracket. -/
theorem costMessage_ne {what name message : String} {needed owned : Quantity}
    (h : costMessage what needed owned = .ok message) : message ≠ name ++ " has no effect!" := by
  simp only [costMessage, bind_eq_ok, pure_eq, Except.ok.injEq] at h
  obtain ⟨need, -, owns, -, rfl⟩ := h
  intro heq
  have hlists : ("Not enough " ++ what ++ "! (Need " ++ need ++ ", have " ++ owns).toList ++ [')'] =
      (name ++ " has no effect").toList ++ ['!'] := by
    simpa using congrArg String.toList heq
  cases (List.append_inj' hlists rfl).2

theorem refuse_not_vain {why : Refusal} (hwhy : ∀ name, why ≠ .noEffect name) :
    Yields (liftM (refuse roster why) : Attempt _) fun x => ¬ x.1.IsVain := by
  refine yields_lift fun x hx => ?_
  obtain ⟨message, hmessage, hx⟩ := bind_eq_ok.1 hx
  have hmessage := leaving_eq_ok.1 hmessage
  cases hx
  rintro ⟨-, name, hname⟩
  cases why with
  | noEffect name => exact hwhy name rfl
  | notEnoughMp needed owned => exact costMessage_ne hmessage hname
  | notEnoughHp needed owned => exact costMessage_ne hmessage hname

theorem refusal?_ne_noEffect {name : String} (h : skill.kind ∈ Skill.Kind.known) :
    refusal? actor skill ≠ some (.noEffect name) := by
  rw [refusal?.eq_def]
  split
  next other hkind => simp [hkind, Skill.Kind.known] at h
  next =>
    split
    · simp
    · split <;> simp

theorem useSkill_not_vain (h : skill.kind ∈ Skill.Kind.known) :
    Yields (useSkill r roster actor skill targets) fun x => ¬ x.1.IsVain := by
  rw [useSkill]
  split
  next why hwhy =>
    refine refuse_not_vain ?_
    rintro name rfl
    exact refusal?_ne_noEffect h hwhy
  next =>
    refine (yields_true _).bind fun paid _ => (yields_true _).bind fun p _ => yields_pure ?_
    simp [Report.IsVain, Progress.report]

theorem useItem_not_vain (h : item.use ∈ Item.Use.known) :
    Yields (useItem roster actor item targets) fun x => ¬ x.1.IsVain := by
  rw [useItem]
  split
  next name huse =>
    simp [huse, Item.Use.known] at h
  next =>
    refine (yields_true _).bind fun p _ => yields_pure ?_
    simp [Report.IsVain, Progress.report]

end Action

namespace Battle

open Chance

variable {g : Game} {s : Scene} {b : Battle} {f : Fighter} {err : Error}

/-- What the pending order is carried out with. -/
inductive Reports (b : Battle) : Action.Report → Prop
  | skill {o : Order} {f : Fighter} {skill : Skill} {r : Action.Report} {roster : Roster}
      {dice : Dice} (ho : b.pending = some o) (hf : b.fighter? o.actorId = some f)
      (hkind : o.kind = .skill) (hskill : b.game.skill? (o.skillId.getD "") = some skill)
      (h : (Action.useSkill b.actionRules b.fighters f skill o.targets).run.run b.dice =
        (.ok (r, roster), dice)) : Reports b r
  | item {o : Order} {f : Fighter} {item : Item} {r : Action.Report} {roster : Roster}
      {dice : Dice} (ho : b.pending = some o) (hf : b.fighter? o.actorId = some f)
      (hkind : o.kind = .item) (hitem : b.game.item? (o.itemId.getD "") = some item)
      (h : (Action.useItem b.fighters f item o.targets).run.run b.dice =
        (.ok (r, roster), dice)) : Reports b r

/-- An order is carried out with a report unless it needs none: it uses no skill or item of the
game, or the fighter defends itself. -/
theorem runOrder_cases {c : Battle} {o : Order} (ho : b.pending = some o)
    (hf : b.fighter? o.actorId = some f) (h : (b.enter .actionExecute).runOrder f o = .ok c) :
    (∃ r roster dice, b.Reports r ∧
        applyReport { b.enter .actionExecute with fighters := roster, dice } r = .ok c) ∨
      (b.game.skill? (o.skillId.getD "") = none ∧
        (b.enter .actionExecute).basicAttack f o.targets = .ok c) ∨
      (b.game.item? (o.itemId.getD "") = none ∧ c = (b.enter .actionExecute).say
        (f.name ++ " tries to use an item, but nothing happens!")) ∨
      o.kind = .defend ∧ c = (b.enter .actionExecute).runDefend f := by
  simp only [runOrder] at h
  split at h
  next hkind =>
    simp only [runSkill] at h
    split at h
    next hnone => exact .inr (.inl ⟨hnone, h⟩)
    next skill hskill =>
      obtain ⟨⟨⟨r, roster⟩, d⟩, hroll, h⟩ := bind_eq_ok.1 h
      obtain ⟨dice, hrun, rfl⟩ := rollOr_eq_ok hroll
      exact .inl ⟨r, roster, dice, .skill ho hf hkind hskill hrun, h⟩
  next hkind =>
    simp only [runItem] at h
    split at h
    next hnone =>
      cases h
      exact .inr (.inr (.inl ⟨hnone, rfl⟩))
    next item hitem =>
      obtain ⟨⟨⟨r, roster⟩, d⟩, hroll, h⟩ := bind_eq_ok.1 h
      obtain ⟨dice, hrun, rfl⟩ := rollOr_eq_ok hroll
      exact .inl ⟨r, roster, dice, .item ho hf hkind hitem hrun, h⟩
  next hkind =>
    cases h
    exact .inr (.inr (.inr ⟨hkind, rfl⟩))
  next => cases h
  next => cases h

def tacticsOf (b : Battle) (f : Fighter) : Tactics.Config :=
  .ofDeclaration ((b.origins.get? f.id).bind Enemy.tactics)

theorem Reports.not_vain {r : Action.Report} (hg : g.Known) (hgame : b.game = g)
    (h : b.Reports r) : ¬ r.IsVain := by
  subst hgame
  cases h with
  | skill _ _ _ hskill hrun =>
      have hknown := hg.skills _ (List.mem_of_find?_eq_some hskill)
      exact Action.useSkill_not_vain hknown _ _ _ hrun
  | item _ _ _ hitem hrun =>
      have hknown := hg.items _ (List.mem_of_find?_eq_some hitem)
      exact Action.useItem_not_vain hknown _ _ _ hrun

theorem tacticsOf_known (hg : g.Known) (hb : Staged g s b) (f : Fighter) :
    (b.tacticsOf f).behavior ∈ Tactics.Behavior.known := by
  have hdefault : Tactics.Behavior.balanced ∈ Tactics.Behavior.known := by decide
  rw [tacticsOf]
  cases hdeclared : (b.origins.get? f.id).bind Enemy.tactics with
  | none => exact hdefault
  | some d =>
      obtain ⟨e, he, hd⟩ := Option.bind_eq_some_iff.1 hdeclared
      rw [Tactics.Config.ofDeclaration]
      dsimp only
      split
      · exact hdefault
      · exact hdefault
      next behavior _ hbehavior => exact hg.enemies e (hb.origins _ e he) d behavior hd hbehavior

/-- On the way of a command no kind is met that no rule knows: no report tells of an action of such
a kind, no event is one, and no enemy decides by a behaviour of its own. An event fails over a value
exactly where it comes to one that spoils a fighter. -/
structure Recognized (b : Battle) (k : Command) : Prop where
  reports : ∀ x r, Reaches (b, .command k) (x, .executePending) → x.Reports r → ¬ r.IsVain
  events : ∀ x e, Reaches (b, .command k) (x, .perform e) → ∀ text, e ≠ .other text
  values : ∀ x e err, Reaches (b, .command k) (x, .perform e) → err.isBadValue = true →
    (FailsWith (Battle.perform x e) err ↔
      ∃ y d, Reaches (x, .perform e) (y, .perform d) ∧ Spoils y d err)
  tactics : ∀ x f, Reaches (b, .command k) (x, .dispatch f) →
    ∀ name, (x.tacticsOf f).behavior ≠ .other name

/-- Battles of a game that has been loaded and of one of its scenes meet no kind that no rule knows,
whatever orders are given and whatever events of the scene happen. -/
theorem recognized_of_inScene {d : Document} {k : Command} (hg : Content.game d = .ok g)
    (hs : s ∈ g.scenes) (hb : InScene g s b) (hk : k.OfScene s) : Recognized b k := by
  have hknown : g.Known := Content.game_known hg
  have hevent : ∀ x e, Reaches (b, .command k) (x, .perform e) → e.Known := fun x e h =>
    (Reaches.ofScene hb hk h).2.known (hknown.events s hs)
  constructor
  · intro x r h hr
    exact hr.not_vain hknown (Reaches.ofScene hb hk h).1.game
  · rintro x e h text rfl
    cases hevent x _ h
  · intro x e err h herr
    exact perform_failsWith (hevent x e h) herr
  · intro x f h name hname
    have hbehavior := tacticsOf_known hknown (Reaches.ofScene hb hk h).1 f
    simp [hname, Tactics.Behavior.known] at hbehavior

def gallery : Document := .object [
  ("id", .text "gallery"), ("title", .text "Gallery"), ("version", .text "1"),
  ("stats", .object [("primary", .list [.object [("id", .text "Speed")]]),
    ("derived", .list [.object [("id", .text "Pace"), ("formula", .text "Speed")]]),
    ("combatFormulas", .object [("physicalDamage", .text "1"), ("magicDamage", .text "1"),
      ("criticalCheck", .text "0"), ("turnOrder", .text "Speed")])]),
  ("characters", .object [("player", .object [("id", .text "hero"),
    ("baseStats", .object [("Speed", .number 5)])])]),
  ("enemies", .list [
    .object [("id", .text "guard"), ("baseStats", .object [("Speed", .number 4)])],
    .object [("id", .text "statue")]]),
  ("skills", .list []), ("items", .list []),
  ("scenes", .list [.object [("id", .text "hall"), ("type", .text "battle"),
    ("enemies", .list [.text "guard"]),
    ("triggers", .list [.object [("condition", .text "turn > 0"),
      ("action", .object [("type", .text "spawn"), ("enemyId", .text "statue")])]])]]),
  ("startingScene", .text "hall")]

theorem recognized_of_inScene_gallery :
    ∃ g s t b, Content.game gallery = .ok g ∧ s ∈ g.scenes ∧ t ∈ s.triggers ∧ InScene g s b ∧
      Recognized b (.perform t.event) := by
  have h : ((Content.game gallery).toOption.bind fun g => g.scenes[0]?.bind fun s =>
      s.triggers[0]?.bind fun t => (Stat.Rules.ofConfig g.stats).toOption.bind fun r =>
        ((Battle.create g (some s) r {} {}).assemble none none).toOption.map fun b => b.turn) =
      some 0 := by
    decide +kernel
  simp only [Option.bind_eq_some_iff, Option.map_eq_some_iff, toOption_eq_some,
    Content.Checked.toOption_eq_some] at h
  obtain ⟨g, hg, s, hs, t, ht, r, -, b, hb, -⟩ := h
  have hscene := List.mem_of_getElem? hs
  have htrigger := List.mem_of_getElem? ht
  have hplayed : InScene g s b := (InScene.create r {} {}).assemble (by simp) hb
  exact ⟨g, s, t, b, hg, hscene, htrigger, hplayed,
    recognized_of_inScene hg hscene hplayed (.trigger htrigger)⟩

/-- The statue cannot appear: its stats have no value. -/
theorem exists_badValue_gallery :
    ∃ g s t b, Content.game gallery = .ok g ∧ s ∈ g.scenes ∧ t ∈ s.triggers ∧ InScene g s b ∧
      FailsWith (Battle.perform b t.event) (.formula (.unknownVariable "Speed")) := by
  have h : ((Content.game gallery).toOption.bind fun g => g.scenes[0]?.bind fun s =>
      s.triggers[0]?.bind fun t => (Stat.Rules.ofConfig g.stats).toOption.bind fun r =>
        ((Battle.create g (some s) r {} {}).assemble none none).toOption.bind fun b =>
          (failure? (Battle.perform b t.event)).map Halt.cause) =
      some (.formula (.unknownVariable "Speed")) := by
    decide +kernel
  simp only [Option.bind_eq_some_iff, toOption_eq_some, Content.Checked.toOption_eq_some] at h
  obtain ⟨g, hg, s, hs, t, ht, r, -, b, hb, herr⟩ := h
  exact ⟨g, s, t, b, hg, List.mem_of_getElem? hs, List.mem_of_getElem? ht,
    (InScene.create r {} {}).assemble (by simp) hb, failsWith_of_failure? herr⟩

end Battle

end Skirmish

import Skirmish.Proofs.Battle.Consistency
import Skirmish.Proofs.Number.Order

namespace Skirmish

open Skirmish.Action (Means Treatment revivedHp)

def Fighter.Vital (f : Fighter) : Prop := f.isAlive = true → Quantity.lt 0 f.hp = true

def Fighter.Hale (f : Fighter) : Prop := Quantity.lt 0 f.maxHp = true

namespace Fighter

variable {f g : Fighter} {amount gained : Quantity}

theorem takeDamage_vital (h : f.takeDamage amount = .ok g) : g.Vital := by
  simp only [takeDamage, Fallible.bind_eq_ok, Fallible.pure_eq, Except.ok.injEq] at h
  obtain ⟨left, -, rfl⟩ := h
  intro halive
  have hsome : Quantity.le (Quantity.max 0 left) 0 = false := by
    simpa using (Bool.and_eq_true_iff.1 halive).2
  show Quantity.lt 0 (Quantity.max 0 left) = true
  rw [Quantity.max] at hsome ⊢
  split
  next hpos => exact hpos
  next hpos =>
    rw [if_neg hpos] at hsome
    cases hsome

theorem restoreHp_vital (hf : f.Vital) (hhale : f.Hale) (hamount : Quantity.le 0 amount = true)
    (h : f.restoreHp amount = .ok (g, gained)) : g.Vital := by
  simp only [restoreHp, Fallible.bind_eq_ok, Fallible.leaving_eq_ok, Fallible.pure_eq,
    Except.ok.injEq, Prod.mk.injEq] at h
  obtain ⟨sum, hsum, gained, -, rfl, -⟩ := h
  intro halive
  exact Quantity.pos_min hhale (Quantity.pos_add (hf halive) hamount hsum)

end Fighter

namespace Action

variable {dice : Dice} {actor f g : Fighter} {m : Means} {item : Item} {roster : Roster}
  {skill : Skill}

/-- What the means may be, so that they leave life to those who live: they cost no less than
nothing, in a number that can be set against the life that pays for it, they heal by no less than
nothing, and whoever they bring back comes back to some life. -/
def Means.Spares (dice : Dice) (actor : Fighter) (roster : Roster) : Means → Prop
  | .skill s =>
    (s.hpCost.isZero = false → Quantity.le 0 s.hpCost = true ∧ actor.hp.Commensurate s.hpCost) ∧
      (s.kind = .healing → ∀ d d' n, dice.Later d →
        (Damage.healing actor (s.power.getD defaultHealing)).run.run d = (.ok n, d') → 0 ≤ n)
  | .item i targets =>
    (i.use = .healHp → Quantity.le 0 i.value = true) ∧
      (i.use = .revive → ∀ f n, f.id ∈ targets → roster.get? f.id = some f →
        f.isAlive = false → revivedHp i f = .ok n → 0 < n)
  | .hands => True

theorem lacksHp_of_refusal? (h : refusal? f skill = none) : skill.lacksHp f.hp = false := by
  rw [refusal?] at h
  split at h
  next => cases h
  next =>
    split at h
    next => cases h
    next =>
      split at h
      next => cases h
      next hlacks => simpa using hlacks

theorem pay_vital (hf : f.Vital) (hcan : refusal? f skill = none)
    (hcost : skill.hpCost.isZero = false →
      Quantity.le 0 skill.hpCost = true ∧ f.hp.Commensurate skill.hpCost)
    (h : pay f skill = .ok g) : g.Vital := by
  simp only [pay, Fallible.pure_eq] at h
  obtain ⟨mp, -, h⟩ := Fallible.bind_eq_ok.1 h
  split at h
  next =>
    cases h
    exact hf
  next hzero =>
    obtain ⟨hp, hhp, h⟩ := Fallible.bind_eq_ok.1 h
    have hhp := Fallible.leaving_eq_ok.1 hhp
    cases h
    obtain ⟨hnonneg, hmeet⟩ := hcost (by simpa using hzero)
    have henough : f.hp.le skill.hpCost = false := by
      have hlacks := lacksHp_of_refusal? hcan
      rw [Skill.lacksHp, Bool.and_eq_false_iff] at hlacks
      exact hlacks.resolve_left (by simpa using hzero)
    intro halive
    exact Quantity.pos_sub (hf halive) hnonneg hmeet henough hhp

theorem revivedHp_congr (h : g.maxHp = f.maxHp) : revivedHp item g = revivedHp item f := by
  simp only [revivedHp, h]

structure Served (roster : Roster) (m : Means) (f g : Fighter) : Prop where
  found : roster.get? f.id = some f
  id : g.id = f.id
  hale : g.Hale
  vital : g.Vital
  maxHp : g.maxHp = f.maxHp
  fallen : ∀ i targets, m = .item i targets → i.use = .revive → g.isAlive = false →
    f.isAlive = false

theorem Served.treat {x : Fighter} (h : Served roster m f g) (hm : m.Spares dice actor roster)
    (htreat : Treatment dice actor m g x) : Served roster m f x := by
  obtain ⟨hp, mp, modifiers, isDefending, isAlive, -, heq⟩ := htreat.footprint
  refine ⟨h.found, ?_, ?_, ?_, ?_, ?_⟩
  · rw [heq, h.id]
  · rw [heq]
    exact h.hale
  · cases htreat with
    | pay hcan hpay => exact pay_vital h.vital hcan hm.1 hpay
    | hit _ hhit => exact Fighter.takeDamage_vital hhit
    | mend hkind hlater hn hmend =>
      have hnonneg := Quantity.whole_nonneg.2 (hm.2 hkind _ _ _ hlater hn)
      exact Fighter.restoreHp_vital h.vital h.hale hnonneg hmend
    | heal huse hheal => exact Fighter.restoreHp_vital h.vital h.hale (hm.1 huse) hheal
    | revive huse htarget hfallen hn =>
      intro _
      -- whoever is brought back had fallen before the action and has the same maximum still
      refine Quantity.whole_pos.2 (hm.2 huse f _ (h.id ▸ htarget) h.found ?_ ?_)
      · exact h.fallen _ _ rfl huse hfallen
      · rwa [← revivedHp_congr h.maxHp]
    | change => exact h.vital
  · rw [heq, ← h.maxHp]
  · rintro i targets rfl huse hfallen
    cases htreat with
    | hit hm _ => simp [Means.Harms, huse] at hm
    | heal huse' _ => simp [huse] at huse'
    | revive => cases hfallen
    | change => exact h.fallen i targets rfl huse hfallen

theorem served (hm : m.Spares dice actor roster) (hid : roster.get? f.id = some f)
    (hhale : f.Hale) (hvital : f.Vital)
    (h : Relation.ReflTransGen (Treatment dice actor m) f g) : Served roster m f g := by
  induction h with
  | refl => exact ⟨hid, rfl, hhale, hvital, rfl, fun _ _ _ _ h => h⟩
  | tail _ htreat ih => exact ih.treat hm htreat

end Action

namespace Battle

variable {b c : Battle} {f g : Fighter} {s : Call}

theorem refresh_vital {r : Stat.Rules} (h : refresh r f = .ok g) (hf : f.Vital) : g.Vital := by
  obtain ⟨stats, -, rfl⟩ := refreshWith_eq_ok.1 h
  exact hf

/-- Everybody who is alive has life left. -/
def Vital (b : Battle) : Prop := ∀ id f, b.fighter? id = some f → f.Vital

def Hale (b : Battle) : Prop := ∀ id f, b.fighter? id = some f → f.Hale

theorem transform_hp {e : Enemy} (h : b.transform f e = .ok c) (hg : c.fighter? f.id = some g) :
    ∃ n, keptHp f g.maxHp = .ok n ∧ g.hp = .whole n ∧ g.isAlive = f.isAlive := by
  obtain ⟨x, n, hx, hn, rfl⟩ := transform_eq_ok_keptHp h
  obtain ⟨stats, -, rfl⟩ := refreshWith_eq_ok.1 hx
  simp only [fighter?, setFighter, say, Table.get?_insert, if_true, Option.some.injEq] at hg
  subst hg
  exact ⟨n, hn, rfl, rfl⟩

def Spares : Call → Prop
  | (_, .perform (.heal amount _)) => Quantity.le 0 amount = true
  | (b, .perform (.transform enemyId target)) => ∀ f e c g n, b.target? target = some f →
    f.isAlive = true → b.game.enemy? enemyId = some e → b.transform f e = .ok c →
    c.fighter? f.id = some g → keptHp f g.maxHp = .ok n → 0 < n
  | (b, .executePending) => ∀ o actor, b.pending = some o → b.fighter? o.actorId = some actor →
    (o.means b.game).Spares b.dice actor b.fighters
  | _ => True

/-- Before and after the call everybody's maximum of life is positive, and what it asks for leaves
life to those who live. -/
structure Mild (s : Call) : Prop where
  before : Hale s.1
  after : ∀ c, s.result = .ok c → Hale c
  spares : Spares s

/-- What changes a fighter beside an action leaves it some life if it lives. -/
theorem Change.vital (hs : Mild s) (hne : s.2 ≠ .executePending) (hf : f.Vital)
    (h : Change s f g) : g.Vital := by
  cases h with
  | begin _ h => exact refresh_vital h hf
  -- one treatment alone does not tell whether a fighter had fallen when the action began
  | treat => exact absurd rfl hne
  | restat _ h => exact refresh_vital h hf
  | settle h => exact refresh_vital h hf
  | heal hliving h =>
      obtain ⟨id, hid⟩ := living?_eq_some hliving
      exact Fighter.restoreHp_vital hf (hs.before id f hid) hs.spares h
  | damage h => exact Fighter.takeDamage_vital h
  | flee =>
      intro halive
      cases halive
  | transform htarget he h hg =>
      obtain ⟨n, hn, hhp, halive⟩ := transform_hp h hg
      intro hg'
      rw [hhp]
      exact Quantity.whole_pos.2 (hs.spares _ _ _ _ n htarget (halive ▸ hg') he h hg hn)

theorem hp_of_recruitEnemy {e : Enemy} {id : String} (h : recruitEnemy b e id = .ok f) :
    f.hp = f.maxHp := by
  simp only [recruitEnemy, recruit, Fallible.bind_eq_ok, Fallible.pure_eq, Except.ok.injEq] at h
  obtain ⟨fresh, -, rfl⟩ := h
  rfl

namespace Vital

theorem setFighter (hb : Vital b) (hf : f.Vital) : Vital (b.setFighter f) := by
  intro id g hg
  rw [fighter?, Battle.setFighter, Table.get?_insert] at hg
  split at hg
  · cases hg
    exact hf
  · exact hb id g hg

theorem changed (hb : Vital b) (hs : Mild s) (hne : s.2 ≠ .executePending)
    (h : b.fighters.Treated (Change s) c.fighters) : Vital c := by
  intro id g hg
  obtain ⟨f, hf, hchanges⟩ := h.before (fun _ _ h => h.footprint.1) hg
  clear hg
  induction hchanges with
  | refl => exact hb id f hf
  | tail _ hchange ih => exact hchange.vital hs hne ih

theorem joined (hb : Vital b) (hc : Hale c) (h : Joined b c) : Vital c := by
  obtain ⟨e, f, entry, log, hf, -, rfl⟩ := h
  refine setFighter (b := b) hb fun _ => ?_
  have hfound : fighter? (b.setFighter f) f.id = some f := by
    rw [fighter?, Battle.setFighter, Table.get?_insert, if_pos rfl]
  rw [hp_of_recruitEnemy hf]
  exact hc f.id f hfound

theorem runOrder {o : Order} {actor : Fighter} (hb : Vital b) (hkeyed : b.fighters.Keyed)
    (hs : Mild (b, .executePending)) (ho : b.pending = some o)
    (hactor : b.fighter? o.actorId = some actor)
    (h : (b.enter .actionExecute).runOrder actor o = .ok c) : Vital c := by
  have hid : actor.id = o.actorId := hkeyed _ actor hactor
  obtain ⟨roster, htreats, hrefresh⟩ :=
    runOrder_treats (b := b.enter .actionExecute) hkeyed (hid ▸ hactor) h
  intro id g hg
  have hrefreshed : ∀ x y, refresh b.rules x = .ok y → y.id = x.id := by
    intro x y hxy
    obtain ⟨stats, -, rfl⟩ := refreshWith_eq_ok.1 hxy
    rfl
  obtain ⟨x, hx, hlast⟩ := hrefresh.before hrefreshed hg
  obtain ⟨f, hf, hfirst⟩ := htreats.before (fun _ _ h => h.id_eq) hx
  have hfound : b.fighters.get? f.id = some f := hkeyed id f hf ▸ hf
  have hserved := Action.served (hs.spares o actor ho hactor) hfound (hs.before id f hf)
    (hb id f hf) hfirst
  clear hg hx
  induction hlast with
  | refl => exact hserved.vital
  | tail _ hstep ih => exact refresh_vital hstep ih

theorem step (hb : Vital b) (hkeyed : b.fighters.Keyed) (hs : Mild s) (h : Step s b c) :
    Vital c := by
  cases h with
  | beside h =>
    intro id f hf
    rw [fighter?, h.fighters] at hf
    exact hb id f hf
  | advance => exact hb
  | round => exact hb
  | @begin b c f hcurrent halive h =>
    obtain ⟨id, hid⟩ := current?_eq_some hcurrent
    have hf : f.Vital := hb id f hid
    obtain ⟨g, log, hg, rfl⟩ := beginTurn_eq_ok h
    exact setFighter (b := b) hb (refresh_vital hg hf)
  | @order b c o f ho hactor h => exact runOrder (b := b) hb hkeyed hs ho hactor h
  | @deed b c e he h =>
    rcases deed_cases hkeyed he h with halters | hjoined
    · exact hb.changed hs (by simp) halters.treated
    · exact hb.joined (hs.after c h) hjoined
  | settle hf h =>
    have hvital := hb _ _ hf
    exact hb.setFighter (refresh_vital h hvital)

theorem path (hb : Vital b) (hkeyed : b.fighters.Keyed) (hs : ∀ t, Reaches s t → Mild t)
    (h : Path s b c) : Vital c := by
  induction h with
  | refl => exact hb
  | tail hbefore hstep ih =>
    obtain ⟨t, hreaches, hstep⟩ := hstep
    exact ih.step (Path.keyed hkeyed hbefore) (hs t hreaches) hstep

theorem enrollAll {seen : List String} {es : List Enemy}
    (hb : b.fighters.Every fun f => f.Hale → f.Vital) (h : b.enrollAll seen es = .ok c) :
    c.fighters.Every fun f => f.Hale → f.Vital := by
  induction es generalizing b seen with
  | nil =>
    cases h
    exact hb
  | cons e es ih =>
    obtain ⟨d, hd, h⟩ := Fallible.bind_eq_ok.1 h
    refine ih ?_ h
    obtain ⟨f, hf, rfl⟩ := enroll_eq_ok hd
    refine hb.insert fun hhale _ => ?_
    rw [hp_of_recruitEnemy hf]
    exact hhale

theorem recruitPlayer {c : Character} (hcarried : ∀ hp, c.hp = some hp → Quantity.lt 0 hp = true)
    (hf : f.Hale) (h : recruitPlayer b c = .ok f) : f.Vital := by
  intro _
  simp only [Battle.recruitPlayer, recruit, Fallible.bind_eq_ok, Fallible.pure_eq,
    Except.ok.injEq] at h
  obtain ⟨modifiers, -, fresh, -, rfl⟩ := h
  have hmax : Quantity.lt 0 fresh.maxHp = true := hf
  cases hhp : c.hp with
  | none => exact hmax
  | some hp => exact Quantity.pos_min (hcarried hp hhp) hmax

theorem assemble {b₀ : Battle} {player : Option Character} {enemies : Option (List Enemy)}
    (hcarried : ∀ hp, (player.getD b₀.game.player).hp = some hp → Quantity.lt 0 hp = true)
    (hb : Hale b) (h : b₀.assemble player enemies = .ok b) : Vital b := by
  obtain ⟨p, hp, h⟩ := Fallible.bind_eq_ok.1 h
  obtain ⟨d, hd, h⟩ := Fallible.bind_eq_ok.1 h
  cases h
  have hplayer : Roster.Every (fun f => f.Hale → f.Vital) (Table.insert {} p.id p) := by
    exact Roster.Every.empty.insert fun hf =>
      recruitPlayer hcarried hf (Fallible.leaving_eq_ok.1 hp)
  intro id f hf
  exact (enrollAll hplayer hd id f hf).2 (hb id f hf)

end Vital

/-- Commands, one after the other, that ask only for mild calls. -/
abbrev MildCourse : Battle → Battle → Prop :=
  Relation.ReflTransGen fun b c => ∃ k : Command, k.apply b = .ok c ∧
    ∀ s, Reaches (b, .command k) s → Mild s

/-- Whatever commands are given, in whatever order: as long as maxima of life are positive, nobody
is healed by less than nothing, a skill that is paid for with life costs no less than nothing, in a
number that can be set against what its user has, and nobody is brought back or transformed to no
life, everybody who is alive has life left. -/
theorem vital_of_mildCourse {b₀ b₁ : Battle} {player : Option Character}
    {enemies : Option (List Enemy)} (h₀ : b₀.assemble player enemies = .ok b₁)
    (hcarried : ∀ hp, (player.getD b₀.game.player).hp = some hp → Quantity.lt 0 hp = true)
    (hb₁ : Hale b₁) (h : MildCourse b₁ b) : Vital b := by
  have hboth : Vital b ∧ b.fighters.Keyed := by
    induction h with
    | refl => exact ⟨.assemble hcarried hb₁ h₀, (Consistent.assemble h₀).keyed⟩
    | tail _ hstep ih =>
      obtain ⟨k, happly, hmild⟩ := hstep
      exact ⟨ih.1.path ih.2 hmild (.apply happly), Path.keyed ih.2 (.apply happly)⟩
  exact hboth.1

theorem reaches_deed {e : Event} (he : e.isDeed = true)
    (h : Reaches (b, .command (.perform e)) s) :
    s = (b, .command (.perform e)) ∨ s = (b, .perform e) := by
  rcases Relation.ReflTransGen.cases_head h with heq | ⟨t, hcall, hrest⟩
  · exact .inl heq.symm
  · cases hcall
    rcases Relation.ReflTransGen.cases_head hrest with heq | ⟨u, hdeed, -⟩
    · exact .inr heq.symm
    · cases hdeed
      all_goals cases he

theorem mildCourse_deed {e : Event} (he : e.isDeed = true) (hok : Battle.perform b e = .ok c)
    (hb : Hale b) (hc : Hale c) (hspares : Spares (b, .perform e)) : MildCourse b c := by
  refine .single ⟨.perform e, hok, fun s hs => ?_⟩
  have hafter : ∀ d, Battle.perform b e = .ok d → Hale d := by
    intro d hd
    obtain rfl : c = d := Except.ok.inj (hok.symm.trans hd)
    exact hc
  rcases reaches_deed he hs with rfl | rfl
  · exact ⟨hb, hafter, trivial⟩
  · exact ⟨hb, hafter, hspares⟩

theorem hale_of_all (h : b.fighters.values.all (fun f => Quantity.lt 0 f.maxHp) = true) :
    Hale b := by
  intro id f hf
  exact List.all_eq_true.1 h f (Table.mem_values_of_get? hf)

theorem vital_of_mildCourse_healed :
    ∃ b₁ c b, (plain none).assemble none (some [.plain "slime"]) = .ok b₁ ∧
      Battle.perform b₁ (.damage 5 (some "hero")) = .ok c ∧
      Battle.perform c (.heal 3 (some "hero")) = .ok b ∧ MildCourse b₁ b ∧ Vital b := by
  have hok : (do
      let b₁ ← (plain none).assemble none (some [.plain "slime"])
      let c ← Battle.perform b₁ (.damage 5 (some "hero"))
      let b ← Battle.perform c (.heal 3 (some "hero"))
      return [b₁, c, b].map fun b : Battle =>
        b.fighters.values.all fun f => Quantity.lt 0 f.maxHp).toOption =
        some [true, true, true] := by
    decide +kernel
  obtain ⟨found, h, hfound⟩ := Fallible.exists_eq_ok_and (f := id) (by simpa using hok)
  simp only [Fallible.bind_eq_ok, Except.ok.injEq] at h
  obtain ⟨b₁, h₁, c, hdamage, b, hheal, rfl⟩ := h
  simp only [id, List.cons.injEq, and_true] at hfound
  obtain ⟨hb₁, hc, hb⟩ := hfound
  have hthree : Quantity.le 0 3 = true := by decide +kernel
  have hcourse : MildCourse b₁ b :=
    (mildCourse_deed rfl hdamage (hale_of_all hb₁) (hale_of_all hc) trivial).trans
      (mildCourse_deed rfl hheal (hale_of_all hc) (hale_of_all hb) hthree)
  exact ⟨b₁, c, b, h₁, hdamage, hheal, hcourse,
    vital_of_mildCourse h₁ (by rintro hp ⟨⟩) (hale_of_all hb₁) hcourse⟩

def lifeless (b : Battle) (id : String) : Bool :=
  (b.fighter? id).any fun f => f.isAlive && !Quantity.lt 0 f.hp

theorem exists_not_vital {id : String} (h : b.lifeless id = true) :
    ∃ f, b.fighter? id = some f ∧ ¬ f.Vital := by
  obtain ⟨f, hf, hnone⟩ := (Option.any_eq_true _ _).1 h
  obtain ⟨halive, hnone⟩ := Bool.and_eq_true_iff.1 hnone
  exact ⟨f, hf, fun hvital => by simp [hvital halive] at hnone⟩

def imp : Enemy := { Enemy.plain "imp" with stats := Table.ofList [("MaxHP", 10)] }

def feather : Item where
  id := "feather"
  name := "Feather"
  use := .revive
  value := 1
  kind := "consumable"
  target := "ally"
  description := ""
  buffStat := none
  buffValue := none
  buffDuration := none
  slot := none
  modifiers := []

def feathering : Order where
  kind := .item
  actorId := "hero"
  itemId := "feather"

def fragile : Battle :=
  create { Game.plain (.plain "hero") with enemies := [imp], items := [feather] } none
    ⟨[], [], .standard⟩ {} {}

/-- A twentieth of ten and a hundredth of twenty are cut to no life at all, but the slime that is
transformed stays alive, and the one that is brought back is. -/
theorem not_vital_fragile :
    ∃ b₁ b, fragile.assemble none (some [.plain "slime", .plain "slime"]) = .ok b₁ ∧ Hale b₁ ∧
      b₁.follow [.start, .perform (.damage 19 (some "slime")),
        .perform (.transform "imp" (some "slime")), .perform (.damage 30 (some "slime_1")),
        .selectAction feathering, .selectTargets ["slime_1"]] = .ok b ∧ Hale b ∧ ¬ Vital b ∧
      ∀ id ∈ ["slime", "slime_1"], ∃ f, b.fighter? id = some f ∧ ¬ f.Vital := by
  have hok : (do
      let b₁ ← fragile.assemble none (some [.plain "slime", .plain "slime"])
      let c ← b₁.startWithin 3
      let d ← Battle.perform c (.damage 19 (some "slime"))
      let d' ← Battle.perform d (.transform "imp" (some "slime"))
      let d'' ← Battle.perform d' (.damage 30 (some "slime_1"))
      let e ← executePending
        { enter { d'' with pending := some feathering } .targetSelect with
          pending := some { feathering with targets := ["slime_1"] } }
      let b ← e.runWithin 4
      return ([b₁, b].map (fun b : Battle =>
          b.fighters.values.all fun f => Quantity.lt 0 f.maxHp), d''.phase,
        d''.current?.map Fighter.id, b.lifeless "slime", b.lifeless "slime_1")).toOption =
        some ([true, true], .actionSelect, some "hero", true, true) := by
    decide +kernel
  obtain ⟨found, h, hfound⟩ := Fallible.exists_eq_ok_and (f := id) (by simpa using hok)
  simp only [Fallible.bind_eq_ok, Except.ok.injEq] at h
  obtain ⟨b₁, h₁, c, hstart, d, hhurt, d', htransform, d'', hfell, e, hdone, b, hrun, rfl⟩ := h
  simp only [id, Prod.mk.injEq, List.cons.injEq, and_true] at hfound
  obtain ⟨⟨hb₁, hb⟩, hphase, hactor, hslime, hother⟩ := hfound
  have hselect := selectAction_item (o := feathering) hphase rfl hactor
  have htargets :
      selectTargets (enter { d'' with pending := some feathering } .targetSelect) ["slime_1"] =
        .ok b :=
    (selectTargets_eq rfl rfl).trans
      (Fallible.bind_eq_ok.2 ⟨e, hdone, run_of_runWithin hrun⟩)
  have hslimes : ∀ id ∈ ["slime", "slime_1"], ∃ f, b.fighter? id = some f ∧ ¬ f.Vital := by
    intro id hid
    rcases List.mem_pair.1 hid with rfl | rfl
    · exact exists_not_vital hslime
    · exact exists_not_vital hother
  refine ⟨b₁, b, h₁, hale_of_all hb₁, ?_, hale_of_all hb, fun hvital => ?_, hslimes⟩
  · simp only [follow, Command.apply, start_of_startWithin hstart, hhurt, htransform, hfell,
      hselect, htargets, Fallible.ok_bind]
  · obtain ⟨f, hf, hnot⟩ := exists_not_vital hslime
    exact hnot (hvital "slime" f hf)

end Battle

end Skirmish

import Skirmish.Proofs.Battle.FreshId
import Skirmish.Proofs.Battle.Lead
import Skirmish.Proofs.Battle.Steps
import Skirmish.Proofs.Battle.Treatment

namespace Skirmish

open Skirmish.Action (Means Treatment)

def Order.means (g : Game) (o : Order) : Means :=
  match o.kind with
  | .skill => ((g.skill? (o.skillId.getD "")).map Means.skill).getD .hands
  | .item => ((g.item? (o.itemId.getD "")).map (Means.item · o.targets)).getD .hands
  | _ => .hands

namespace Battle

variable {b c : Battle} {e : Enemy} {f g : Fighter} {o : Order} {s : Call}

/-- What a step on the way of a call may do to a fighter; with other modifiers it has other
stats. -/
inductive Change : Call → Fighter → Fighter → Prop
  | begin {b : Battle} {f g : Fighter} (hcurrent : b.current? = some f)
      (h : refresh b.rules { f with isDefending := false, modifiers := f.modifiers.tick } = .ok g) :
      Change (b, .startTurn) f g
  | treat {b : Battle} {o : Order} {actor f g : Fighter} (ho : b.pending = some o)
      (hactor : b.fighter? o.actorId = some actor)
      (h : Treatment b.dice actor (o.means b.game) f g) : Change (b, .executePending) f g
  | restat {s : Call} {r : Stat.Rules} {f g : Fighter} {modifiers : Modifier.Stack}
      (hedits : f.modifiers.Edits modifiers) (h : refresh r { f with modifiers } = .ok g) :
      Change s f g
  | heal {b : Battle} {amount gained : Quantity} {target : Option String} {f g : Fighter}
      (hf : b.living? target = some f) (h : f.restoreHp amount = .ok (g, gained)) :
      Change (b, .perform (.heal amount target)) f g
  | damage {b : Battle} {amount : Quantity} {target : Option String} {f g : Fighter}
      (h : f.takeDamage amount = .ok g) : Change (b, .perform (.damage amount target)) f g
  | flee {b : Battle} {target : Option String} {f : Fighter} :
      Change (b, .perform (.flee target)) f { f with isAlive := false }
  | transform {b c : Battle} {enemyId : String} {target : Option String} {e : Enemy}
      {f g : Fighter} (hf : b.target? target = some f) (he : b.game.enemy? enemyId = some e)
      (h : b.transform f e = .ok c) (hg : c.fighter? f.id = some g) :
      Change (b, .perform (.transform enemyId target)) f g
  | settle {b : Battle} {r : Stat.Rules} {f g : Fighter} (h : refresh r (withoutMagic f) = .ok g) :
      Change (b, .command .close) f g

theorem transform_fighter (h : b.transform f e = .ok c) (hg : c.fighter? f.id = some g) :
    ∃ name baseStats skills stats hp maxHp maxMp,
      g = { f with name, baseStats, skills, stats, hp, maxHp, maxMp } := by
  obtain ⟨g', hp, hrenew, rfl⟩ := transform_eq_ok h
  obtain ⟨stats, -, rfl⟩ := refreshWith_eq_ok.1 hrenew
  simp only [fighter?, setFighter, say, Table.get?_insert, if_true, Option.some.injEq] at hg
  exact ⟨_, _, _, _, _, _, _, hg.symm⟩

/-- What a change does beside changing stats, maxima, life and magic. -/
theorem Change.footprint (h : Change s f g) :
    g.id = f.id ∧ g.isPlayer = f.isPlayer ∧
      (f.modifiers.Edits g.modifiers ∨ s.2 = .startTurn ∨ s.2 = .command .close) := by
  cases h with
  | begin _ h =>
      obtain ⟨stats, -, rfl⟩ := refreshWith_eq_ok.1 h
      exact ⟨rfl, rfl, .inr (.inl rfl)⟩
  | treat _ _ h =>
      obtain ⟨hp, mp, modifiers, isDefending, isAlive, hedits, rfl⟩ := h.footprint
      exact ⟨rfl, rfl, .inl hedits⟩
  | restat hedits h =>
      obtain ⟨stats, -, rfl⟩ := refreshWith_eq_ok.1 h
      exact ⟨rfl, rfl, .inl hedits⟩
  | heal _ h =>
      obtain ⟨hp, rfl⟩ := Fighter.restoreHp_eq_ok h
      exact ⟨rfl, rfl, .inl .refl⟩
  | damage h =>
      obtain ⟨hp, isAlive, rfl⟩ := Fighter.takeDamage_eq_ok h
      exact ⟨rfl, rfl, .inl .refl⟩
  | flee => exact ⟨rfl, rfl, .inl .refl⟩
  | transform _ _ h hg =>
      obtain ⟨name, baseStats, skills, stats, hp, maxHp, maxMp, rfl⟩ := transform_fighter h hg
      exact ⟨rfl, rfl, .inl .refl⟩
  | settle h =>
      obtain ⟨stats, -, rfl⟩ := refreshWith_eq_ok.1 h
      exact ⟨rfl, rfl, .inr (.inr rfl)⟩

theorem refreshAll_treats {ids : List String} (hb : b.fighters.Keyed)
    (h : b.refreshAll ids = .ok c) :
    b.fighters.Treated (fun f g => refresh b.rules f = .ok g) c.fighters := by
  induction ids generalizing b with
  | nil =>
      cases h
      exact .refl
  | cons id ids ih =>
      obtain ⟨d, hd, h⟩ := Fallible.bind_eq_ok.1 h
      simp only [refreshFighter] at hd
      split at hd
      next =>
        cases hd
        exact ih hb h
      next f hf =>
        obtain ⟨g, hg, hd⟩ := Fallible.bind_eq_ok.1 hd
        cases hd
        have hset : b.fighters.Treated (fun f g => refresh b.rules f = .ok g)
            (b.setFighter g).fighters := Roster.Treated.one hb hf (Fallible.leaving_eq_ok.1 hg)
        exact hset.trans (ih (hset.keyed hb) h)

theorem applyReport_treats {report : Action.Report} (hb : b.fighters.Keyed)
    (h : b.applyReport report = .ok c) :
    b.fighters.Treated (fun f g => refresh b.rules f = .ok g) c.fighters := by
  simp only [applyReport] at h
  split at h
  next =>
    cases h
    exact .refl
  next =>
    obtain ⟨d, hsay, h⟩ := Fallible.bind_eq_ok.1 h
    have hsame : SameField (b.say report.message) d := Coherent.sayEffects_same hsay
    have hfighters : d.fighters = b.fighters := hsame.fighters
    have hrules : d.rules = b.rules := hsame.rules
    have htreats := refreshAll_treats (b := d.sayKilled report.killed)
      (by rwa [sayKilled, sayAll, hfighters]) h
    rwa [sayKilled, sayAll, hfighters, hrules] at htreats

theorem basicAttackOn_treats {attack : Quantity} {ids : List String} (hb : b.fighters.Keyed)
    (h : b.basicAttackOn attack ids = .ok c) :
    b.fighters.Treated (fun f g => ∃ amount, f.takeDamage amount = .ok g) c.fighters := by
  induction ids generalizing b with
  | nil =>
      cases h
      exact .refl
  | cons id ids ih =>
      simp only [basicAttackOn] at h
      split at h
      next => exact ih hb h
      next f hf =>
        simp only [Fallible.bind_eq_ok, Fallible.leaving_eq_ok, arithmetic,
          Fallible.mapError_eq_ok] at h
        obtain ⟨damage, -, after, hafter, h⟩ := h
        obtain ⟨hf, -⟩ := Option.filter_eq_some_iff.1 hf
        have hset : b.fighters.Treated (fun f g => ∃ amount, f.takeDamage amount = .ok g)
            (b.setFighter after).fighters := Roster.Treated.one hb hf ⟨_, hafter⟩
        split at h
        all_goals
          refine Relation.ReflTransGen.trans ?_ (ih ?_ h)
          · exact hset
          · exact hset.keyed hb

theorem runOrder_treats (hb : b.fighters.Keyed) (hf : b.fighter? f.id = some f)
    (h : b.runOrder f o = .ok c) :
    ∃ roster,
      b.fighters.Treated (Treatment b.dice f (o.means b.game)) roster ∧
      roster.Treated (fun x y => refresh b.rules x = .ok y) c.fighters := by
  simp only [runOrder] at h
  split at h
  next hkind =>
    simp only [runSkill] at h
    split at h
    next hskill =>
      have hmeans : o.means b.game = .hands := by simp [Order.means, hkind, hskill]
      refine ⟨c.fighters, ?_, .refl⟩
      have hhits := basicAttackOn_treats (b := b.say _) hb h
      refine Roster.Treated.mono ?_ hhits
      rintro x y ⟨amount, hhit⟩
      exact .hit (by rw [hmeans]; trivial) hhit
    next skill hskill =>
      obtain ⟨⟨x, d⟩, hroll, h⟩ := Fallible.bind_eq_ok.1 h
      obtain ⟨dice, hrun, rfl⟩ := rollOr_eq_ok hroll
      obtain ⟨htreats, -⟩ := Action.useSkill_treats hb hf _ x dice .refl hrun
      have hmeans : o.means b.game = .skill skill := by simp [Order.means, hkind, hskill]
      rw [hmeans]
      exact ⟨x.2, htreats, applyReport_treats (b := { b with dice, fighters := x.2 })
        (htreats.keyed hb) h⟩
  next hkind =>
    simp only [runItem] at h
    split at h
    next =>
      cases h
      exact ⟨b.fighters, .refl, .refl⟩
    next item hitem =>
      obtain ⟨⟨x, d⟩, hroll, h⟩ := Fallible.bind_eq_ok.1 h
      obtain ⟨dice, hrun, rfl⟩ := rollOr_eq_ok hroll
      obtain ⟨htreats, -⟩ := Action.useItem_treats hb _ x dice .refl hrun
      have hmeans : o.means b.game = .item item o.targets := by simp [Order.means, hkind, hitem]
      rw [hmeans]
      exact ⟨x.2, htreats, applyReport_treats (b := { b with dice, fighters := x.2 })
        (htreats.keyed hb) h⟩
  next =>
    cases h
    exact ⟨_, Roster.Treated.single hf (.change f.mp true .refl), .refl⟩
  next => cases h
  next => cases h

/-- An enemy has joined under an id of its own, at the end of the queue. -/
def Joined (b c : Battle) : Prop :=
  ∃ e f entry log, recruitEnemy b e (freshId b.fighters e.id) = .ok f ∧ entry.id = f.id ∧
    c = { b with
      fighters := b.fighters.insert f.id f, origins := b.origins.insert f.id e
      queue := b.queue ++ [entry], log }

theorem spawn_joined (h : b.spawn e = .ok c) : Joined b c := by
  simp only [Battle.spawn, Fallible.bind_eq_ok] at h
  obtain ⟨d, henroll, initiative, -, h⟩ := h
  obtain ⟨f, hf, rfl⟩ := enroll_eq_ok henroll
  cases h
  have hid := (recruitEnemy_side hf).1
  refine ⟨e, f, ⟨freshId b.fighters e.id, initiative⟩, b.log ++ [e.name ++ " appeared!"], hf,
    hid.symm, ?_⟩
  simp only [setFighter, say, hid]

/-- The origins stay, or one of an enemy on the field is replaced. -/
def SameOrigins (b c : Battle) : Prop :=
  c.origins = b.origins ∨ ∃ f e, b.fighter? f.id = some f ∧ f.isPlayer = false ∧
    c.origins = b.origins.insert f.id e

/-- A call stirs the field, and changes fighters in their places. -/
structure Alters (s : Call) (b c : Battle) : Prop where
  stirred : Stirred b c
  origins : SameOrigins b c
  treated : b.fighters.Treated (Change s) c.fighters

theorem Alters.refl (s : Call) (b : Battle) : Alters s b b := ⟨.refl b, .inl rfl, .refl⟩

section

variable {amount : Quantity} {target : Option String}

theorem scriptBuff_alters {stat : String} {value : Quantity} {duration : Option Int}
    (hb : b.fighters.Keyed) (hf : b.target? target = some f)
    (h : b.scriptBuff stat value duration f = .ok c) : Alters s b c := by
  obtain ⟨id, hid⟩ := target?_eq_some hf
  have hstirred : Stirred b c := .scriptBuff h
  obtain ⟨g, hg, h⟩ := Fallible.bind_eq_ok.1 h
  cases h
  have hchange : Change s f g :=
    .restat (.single (.add _ "buff" rfl)) (Fallible.leaving_eq_ok.1 hg)
  exact ⟨hstirred, .inl rfl, Roster.Treated.one hb hid hchange⟩

theorem scriptHeal_alters (hb : b.fighters.Keyed) (hf : b.living? target = some f)
    (h : b.scriptHeal amount f = .ok c) : Alters (b, .perform (.heal amount target)) b c := by
  obtain ⟨id, hid⟩ := living?_eq_some hf
  have hstirred : Stirred b c := .scriptHeal h
  simp only [Battle.scriptHeal, arithmetic, Fallible.bind_eq_ok, Fallible.leaving_eq_ok,
    Fallible.mapError_eq_ok, Prod.exists] at h
  obtain ⟨g, gained, hg, shown, -, h⟩ := h
  cases h
  exact ⟨hstirred, .inl rfl, Roster.Treated.one hb hid (.heal hf hg)⟩

theorem scriptDamage_alters (hb : b.fighters.Keyed) (hf : b.living? target = some f)
    (h : b.scriptDamage amount f = .ok c) : Alters (b, .perform (.damage amount target)) b c := by
  obtain ⟨id, hid⟩ := living?_eq_some hf
  have hstirred : Stirred b c := .scriptDamage h
  simp only [Battle.scriptDamage, arithmetic, Fallible.bind_eq_ok, Fallible.leaving_eq_ok,
    Fallible.mapError_eq_ok] at h
  obtain ⟨g, hg, shown, -, h⟩ := h
  cases h
  have htreats : b.fighters.Treated (Change (b, .perform (.damage amount target)))
      (b.setFighter g).fighters := Roster.Treated.one hb hid (.damage hg)
  refine ⟨hstirred, ?_, ?_⟩
  · split <;> exact .inl rfl
  · split <;> exact htreats

theorem scriptFlee_alters (hb : b.fighters.Keyed) (hf : b.named? target = some f) :
    Alters (b, .perform (.flee target)) b (b.scriptFlee f) := by
  obtain ⟨id, hid⟩ := named?_eq_some hf
  have hstirred : Stirred b (b.scriptFlee f) := .scriptFlee b f
  rw [scriptFlee] at hstirred ⊢
  split
  · exact .refl _ b
  next hside =>
    rw [if_neg hside] at hstirred
    exact ⟨hstirred, .inl rfl, Roster.Treated.one hb hid .flee⟩

theorem scriptTransform_alters {enemyId : String} (hb : b.fighters.Keyed)
    (h : b.scriptTransform enemyId target = .ok c) :
    Alters (b, .perform (.transform enemyId target)) b c := by
  rw [scriptTransform] at h
  split at h
  next enemy f henemy hf =>
    obtain ⟨id, hid⟩ := target?_eq_some hf
    split at h
    next =>
      cases h
      exact .refl _ b
    next hside =>
      have hstirred : Stirred b c := .transform h
      have hok := h
      obtain ⟨g, hp, hg, rfl⟩ := transform_eq_ok h
      have hgid : g.id = f.id := (refreshWith_side hg).1
      have hfound : b.fighter? f.id = some f := hb id f hid ▸ hid
      refine ⟨hstirred, .inr ⟨f, enemy, hfound, by simpa using hside, by rw [← hgid]; rfl⟩, ?_⟩
      refine Roster.Treated.one (g := { g with hp }) hb hid (.transform hf henemy hok ?_)
      simp [fighter?, setFighter, say, Table.get?_insert, hgid]
  next =>
    cases h
    exact .refl _ b

end

theorem deed_cases {e : Event} (hb : b.fighters.Keyed) (he : e.isDeed = true)
    (h : Battle.perform b e = .ok c) : Alters (b, .perform e) b c ∨ Joined b c := by
  cases e with
  | dialog => cases he
  | multi => cases he
  | other => cases he
  | spawn enemyId =>
      rw [Battle.perform] at h
      split at h
      · cases h
        exact .inl (.refl _ b)
      · exact .inr (spawn_joined h)
  | buff stat value target duration =>
      rw [Battle.perform] at h
      rcases withFighter_eq_ok h with rfl | ⟨f, hf, h⟩
      · exact .inl (.refl _ c)
      · exact .inl (scriptBuff_alters hb hf h)
  | heal amount target =>
      rw [Battle.perform] at h
      rcases withFighter_eq_ok h with rfl | ⟨f, hf, h⟩
      · exact .inl (.refl _ c)
      · exact .inl (scriptHeal_alters hb hf h)
  | damage amount target =>
      rw [Battle.perform] at h
      rcases withFighter_eq_ok h with rfl | ⟨f, hf, h⟩
      · exact .inl (.refl _ c)
      · exact .inl (scriptDamage_alters hb hf h)
  | flee target =>
      rw [Battle.perform] at h
      cases h
      cases hnamed : b.named? target with
      | none => exact .inl (.refl _ b)
      | some f => exact .inl (scriptFlee_alters hb hnamed)
  | transform enemyId target =>
      rw [Battle.perform] at h
      exact .inl (scriptTransform_alters hb h)

theorem Step.fighters (hb : b.fighters.Keyed) (h : Step s b c) :
    SameOrigins b c ∧ b.fighters.Treated (Change s) c.fighters ∨ Joined b c := by
  cases h with
  | beside h =>
      refine .inl ⟨.inl h.origins, ?_⟩
      rw [h.fighters]
  | advance => exact .inl ⟨.inl rfl, .refl⟩
  | round => exact .inl ⟨.inl rfl, .refl⟩
  | @begin b c f hcurrent halive h =>
      obtain ⟨id, hid⟩ := current?_eq_some hcurrent
      have htreats : b.fighters.Treated (Change (b, .startTurn)) c.fighters := by
        obtain ⟨g, log, hg, rfl⟩ := beginTurn_eq_ok h
        exact Roster.Treated.one hb hid (.begin hcurrent hg)
      obtain ⟨fighters, dice, log, rfl⟩ := Acted.beginTurn h
      exact .inl ⟨.inl rfl, htreats⟩
  | @order b c o f ho hf h =>
      have hid : f.id = o.actorId := hb _ f hf
      obtain ⟨roster, htreats, hrefresh⟩ :=
        runOrder_treats (b := b.enter .actionExecute) hb (hid ▸ hf) h
      have hchanges : b.fighters.Treated (Change (b, .executePending)) c.fighters := by
        refine Relation.ReflTransGen.trans (b := roster) ?_ ?_
        · exact Roster.Treated.mono (fun _ _ htreat => .treat ho hf htreat) htreats
        · exact Roster.Treated.mono (fun _ _ hrefreshed => .restat .refl hrefreshed) hrefresh
      obtain ⟨fighters, dice, log, rfl⟩ := Acted.runOrder h
      exact .inl ⟨.inl rfl, hchanges⟩
  | deed he h => exact (deed_cases hb he h).imp_left fun hdeed => ⟨hdeed.origins, hdeed.treated⟩
  | settle hf h => exact .inl ⟨.inl rfl, Roster.Treated.one hb hf (.settle h)⟩

theorem Step.keyed (hb : b.fighters.Keyed) (h : Step s b c) : c.fighters.Keyed := by
  rcases h.fighters hb with ⟨-, htreats⟩ | ⟨e, f, entry, log, -, -, rfl⟩
  · exact htreats.keyed hb
  · exact hb.insert f

theorem Step.after {id : String} (hb : b.fighters.Keyed) (h : Step s b c)
    (hf : b.fighter? id = some f) :
    ∃ g, c.fighter? id = some g ∧ Relation.ReflTransGen (Change s) f g := by
  rcases h.fighters hb with ⟨-, htreats⟩ | ⟨e, g, entry, log, hg, -, rfl⟩
  · exact htreats.after (fun _ _ h => h.footprint.1) hf
  · refine ⟨f, ?_, .refl⟩
    rw [fighter?, Table.get?_insert, if_neg]
    · exact hf
    · rintro rfl
      rw [(recruitEnemy_side hg).1, fighter?,
        Table.get?_of_notMem (freshId_notMem b.fighters e.id)] at hf
      cases hf

theorem Path.keyed (hb : b.fighters.Keyed) (h : Path s b c) : c.fighters.Keyed := by
  induction h with
  | refl => exact hb
  | tail _ hstep ih =>
      obtain ⟨t, -, hstep⟩ := hstep
      exact hstep.keyed ih

theorem Path.after {id : String} (hb : b.fighters.Keyed) (h : Path s b c)
    (hf : b.fighter? id = some f) :
    ∃ g, c.fighter? id = some g ∧
      Relation.ReflTransGen (fun x y => ∃ t, Reaches s t ∧ Change t x y) f g := by
  induction h with
  | refl => exact ⟨f, hf, .refl⟩
  | tail hbefore hstep ih =>
      obtain ⟨t, hreaches, hstep⟩ := hstep
      obtain ⟨g, hg, hchanges⟩ := ih
      obtain ⟨g', hg', hmore⟩ := hstep.after (Path.keyed hb hbefore) hg
      refine ⟨g', hg', hchanges.trans ?_⟩
      exact Relation.ReflTransGen.mono (fun x y h => ⟨t, hreaches, h⟩) _ _ hmore

end Battle

end Skirmish

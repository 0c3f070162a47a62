import Skirmish.Proofs.Battle.Report

namespace Skirmish

namespace Roster

def Keyed (r : Roster) : Prop := ∀ id f, r.get? id = some f → f.id = id

abbrev Treated (T : Fighter → Fighter → Prop) : Roster → Roster → Prop :=
  Relation.ReflTransGen fun r r' => ∃ f g, r.get? f.id = some f ∧ T f g ∧ r' = r.insert g.id g

variable {T : Fighter → Fighter → Prop} {P : Fighter → Prop} {r r' : Roster} {f g : Fighter}
  {id : String}

theorem Keyed.insert (h : r.Keyed) (f : Fighter) : Keyed (r.insert f.id f) := by
  intro id g hg
  rw [Table.get?_insert] at hg
  split at hg
  next hid =>
    cases hg
    exact hid.symm
  next => exact h id g hg

namespace Treated

theorem single (hf : r.get? f.id = some f) (h : T f g) : Treated T r (r.insert g.id g) :=
  Relation.ReflTransGen.single ⟨f, g, hf, h, rfl⟩

theorem one (hr : r.Keyed) (hf : r.get? id = some f) (h : T f g) :
    Treated T r (r.insert g.id g) :=
  single (hr id f hf ▸ hf) h

theorem mono {T' : Fighter → Fighter → Prop} (hT : ∀ f g, T f g → T' f g) (h : Treated T r r') :
    Treated T' r r' := by
  refine Relation.ReflTransGen.mono ?_ _ _ h
  rintro x y ⟨f, g, hf, htreat, rfl⟩
  exact ⟨f, g, hf, hT f g htreat, rfl⟩

theorem keyed (h : Treated T r r') (hr : r.Keyed) : r'.Keyed := by
  induction h with
  | refl => exact hr
  | tail _ hstep ih =>
      obtain ⟨f, g, -, -, rfl⟩ := hstep
      exact ih.insert g

variable (hid : ∀ f g, T f g → g.id = f.id)

include hid

theorem after (h : Treated T r r') (hf : r.get? id = some f) :
    ∃ g, r'.get? id = some g ∧ Relation.ReflTransGen T f g := by
  induction h with
  | refl => exact ⟨f, hf, .refl⟩
  | tail _ hstep ih =>
      obtain ⟨f', g', hf', htreat, rfl⟩ := hstep
      obtain ⟨g, hg, hsteps⟩ := ih
      rw [Table.get?_insert]
      split
      next heq =>
        rw [heq, hid f' g' htreat, hf'] at hg
        cases hg
        exact ⟨g', rfl, hsteps.tail htreat⟩
      next => exact ⟨g, hg, hsteps⟩

theorem before (h : Treated T r r') (hg : r'.get? id = some g) :
    ∃ f, r.get? id = some f ∧ Relation.ReflTransGen T f g := by
  induction h generalizing id g with
  | refl => exact ⟨g, hg, .refl⟩
  | tail _ hstep ih =>
      obtain ⟨f', g', hf', htreat, rfl⟩ := hstep
      rw [Table.get?_insert] at hg
      split at hg
      next heq =>
        cases hg
        rw [hid f' g htreat] at heq
        obtain ⟨f, hf, hsteps⟩ := ih hf'
        exact ⟨f, heq ▸ hf, hsteps.tail htreat⟩
      next => exact ih hg

end Treated

end Roster

namespace Action

open Chance

/-- What a fighter is treated with; of an item, with those it is used on. -/
inductive Means where
  | skill (s : Skill)
  | item (i : Item) (targets : List String)
  | hands

def Means.Harms : Means → Prop
  | .item i _ => i.use = .damage
  | _ => True

/-- What an action may do to a fighter: the actor pays for it, and those who are met are hit,
healed, brought back, or changed beside their life. -/
inductive Treatment (dice : Dice) (actor : Fighter) : Means → Fighter → Fighter → Prop
  | pay {skill : Skill} {g : Fighter} (hcan : refusal? actor skill = none)
      (h : pay actor skill = .ok g) : Treatment dice actor (.skill skill) actor g
  | hit {m : Means} {f g : Fighter} {amount : Quantity} (hm : m.Harms)
      (h : f.takeDamage amount = .ok g) : Treatment dice actor m f g
  | mend {skill : Skill} {f g : Fighter} {gained : Quantity} {n : Int} {d d' : Dice}
      (hkind : skill.kind = .healing) (hlater : dice.Later d)
      (hn : (Damage.healing actor (skill.power.getD defaultHealing)).run.run d = (.ok n, d'))
      (h : f.restoreHp (.whole n) = .ok (g, gained)) : Treatment dice actor (.skill skill) f g
  | heal {item : Item} {targets : List String} {f g : Fighter} {gained : Quantity}
      (huse : item.use = .healHp) (h : f.restoreHp item.value = .ok (g, gained)) :
      Treatment dice actor (.item item targets) f g
  | revive {item : Item} {targets : List String} {f : Fighter} {n : Int}
      (huse : item.use = .revive) (htarget : f.id ∈ targets) (hfallen : f.isAlive = false)
      (hn : revivedHp item f = .ok n) :
      Treatment dice actor (.item item targets) f { f with isAlive := true, hp := .whole n }
  | change {m : Means} {f : Fighter} {modifiers : Modifier.Stack} (mp : Quantity)
      (isDefending : Bool) (h : f.modifiers.Edits modifiers) :
      Treatment dice actor m f { f with mp, modifiers, isDefending }

variable {dice : Dice} {actor f g : Fighter} {m : Means}

theorem Treatment.footprint (h : Treatment dice actor m f g) :
    ∃ hp mp modifiers isDefending isAlive, f.modifiers.Edits modifiers ∧
      g = { f with hp, mp, modifiers, isDefending, isAlive } := by
  cases h with
  | pay _ h =>
      obtain ⟨hp, mp, rfl⟩ := pay_eq_ok h
      exact ⟨hp, mp, _, _, _, .refl, rfl⟩
  | hit _ h =>
      obtain ⟨hp, isAlive, rfl⟩ := Fighter.takeDamage_eq_ok h
      exact ⟨hp, _, _, _, isAlive, .refl, rfl⟩
  | mend _ _ _ h =>
      obtain ⟨hp, rfl⟩ := Fighter.restoreHp_eq_ok h
      exact ⟨hp, _, _, _, _, .refl, rfl⟩
  | heal _ h =>
      obtain ⟨hp, rfl⟩ := Fighter.restoreHp_eq_ok h
      exact ⟨hp, _, _, _, _, .refl, rfl⟩
  | revive => exact ⟨_, _, _, _, _, .refl, rfl⟩
  | change mp isDefending h => exact ⟨_, mp, _, isDefending, _, h, rfl⟩

theorem Treatment.id_eq (h : Treatment dice actor m f g) : g.id = f.id := by
  obtain ⟨hp, mp, modifiers, isDefending, isAlive, -, rfl⟩ := h.footprint
  rfl

theorem Treatment.stats_eq (h : Treatment dice actor m f g) : g.stats = f.stats := by
  obtain ⟨hp, mp, modifiers, isDefending, isAlive, -, rfl⟩ := h.footprint
  rfl

theorem healing_congr {base : Quantity} (h : g.stats = f.stats) :
    Damage.healing g base = Damage.healing f base := by
  simp only [Damage.healing, Damage.healingMagic, h]

variable {roster : Roster} {p : Progress} {skill : Skill} {item : Item}
  {ids targets : List String}

def Serves (dice : Dice) (actor : Fighter) (m : Means) (roster : Roster) (p : Progress) : Prop :=
  roster.Treated (Treatment dice actor m) p.roster

theorem Serves.update {e : Effect} (hp : Serves dice actor m roster p)
    (hf : p.roster.get? f.id = some f) (h : Treatment dice actor m f g) :
    Serves dice actor m roster (p.record g e) :=
  Relation.ReflTransGen.trans hp (Roster.Treated.single hf h)

theorem Serves.strike {e : Effect} {amount : Quantity} (hm : m.Harms)
    (hp : Serves dice actor m roster p) (hf : p.roster.get? f.id = some f)
    (h : f.takeDamage amount = .ok g) :
    Serves dice actor m roster (p.strike f g e) := by
  have hupdate : Serves dice actor m roster (p.record g e) := hp.update hf (.hit hm h)
  rw [Progress.strike]
  split
  · exact hupdate
  · exact hupdate

def Attends (dice : Dice) (actor : Fighter) (m : Means) (roster : Roster) (ids : List String)
    (step : Step) : Prop :=
  ∀ p f, f.id ∈ ids → Serves dice actor m roster p → p.roster.get? f.id = some f →
    Draws dice (step p f) (Serves dice actor m roster)

theorem forEach_serves {step : Step} {ids : List String} (hr : roster.Keyed)
    (hstep : Attends dice actor m roster ids step) (hp : Serves dice actor m roster p) :
    Draws dice (forEach step p ids) (Serves dice actor m roster) := by
  induction ids generalizing p with
  | nil => exact draws_pure hp
  | cons id ids ih =>
      have hrest : Attends dice actor m roster ids step := fun q f hmem =>
        hstep q f (List.mem_cons_of_mem id hmem)
      rw [forEach]
      split
      next => exact ih hrest hp
      next f hf =>
        have hid : f.id = id := hp.keyed hr id f hf
        have hmem : f.id ∈ id :: ids := hid ▸ List.mem_cons_self
        exact (hstep p f hmem hp (hid ▸ hf)).bind fun q hq => ih hrest hq

theorem attackStep_attends {rules : Rules} {id : String} :
    Attends dice actor (.skill skill) roster ids (attackStep rules id skill) := by
  intro p f _ hp hf
  have hhit : ∀ a, Draws dice (Damage.calculate rules.formulas a f (damageKind skill.kind)
      (skill.power.getD defaultPower)) fun _ => True := by
    intro a
    have hpercent : Draws dice (percent : Roll ArithmeticError Float) fun _ => True :=
      draws_unit.bind fun x _ => draws_pure trivial
    have hvariance : Draws dice (variance : Roll ArithmeticError Float) fun _ => True :=
      draws_unit.bind fun x _ => draws_pure trivial
    exact hvariance.bind fun _ _ => hpercent.bind fun _ _ => draws_unit.bind fun _ _ =>
      draws_lift fun _ _ => trivial
  refine ((hhit _).adapt _).bind fun hit _ => ?_
  refine (draws_lift fun _ _ => trivial).bind fun damage _ => ?_
  exact (draws_lift fun _ => Fallible.leaving_eq_ok.1).bind fun after hafter =>
    draws_pure (hp.strike trivial hf hafter)

/-- The healer heals by the stats that it had before. -/
theorem healStep_attends (hkind : skill.kind = .healing)
    (hactor : roster.get? actor.id = some actor) :
    Attends dice actor (.skill skill) roster ids (healStep actor.id skill) := by
  intro p f _ hp hf
  obtain ⟨healer, hhealer, hsteps⟩ := hp.after (fun _ _ h => h.id_eq) hactor
  have hstats : healer.stats = actor.stats := by
    clear hhealer
    induction hsteps with
    | refl => rfl
    | tail _ hstep ih => exact hstep.stats_eq.trans ih
  have hamount : Draws dice (Damage.healing actor (skill.power.getD defaultHealing))
      fun _ => True :=
    draws_unit.bind fun x _ => (draws_lift fun _ _ => trivial).bind fun share _ =>
      (draws_lift fun _ _ => trivial).bind fun sum _ => (draws_lift fun _ _ => trivial).bind
        fun amount _ => draws_lift fun _ _ => trivial
  simp only [healStep, hhealer, Option.getD_some, healing_congr hstats]
  refine (hamount.outcome.adapt _).bind fun n hn =>
    (draws_lift fun _ => Fallible.mapError_eq_ok.1).bind ?_
  obtain ⟨d, d', hlater, hn⟩ := hn
  rintro ⟨after, gained⟩ hafter
  exact draws_pure (hp.update hf (.mend hkind hlater hn hafter))

theorem modifierStep_attends {definition : Modifier.Definition} {source : String}
    {effect : Fighter → Effect} (hstack : definition.stackable = false) :
    Attends dice actor m roster ids (modifierStep definition source effect) := by
  intro p f _ hp hf
  have hadd : f.modifiers.Edits (f.modifiers.add definition source) := .single (.add _ _ hstack)
  exact draws_pure (hp.update hf (.change f.mp f.isDefending hadd))

theorem buffAll_serves (hr : roster.Keyed) (hp : Serves dice actor m roster p) :
    Draws dice (buffAll skill targets p) (Serves dice actor m roster) := by
  rw [buffAll]
  split
  · exact draws_pure hp
  · exact forEach_serves hr (modifierStep_attends rfl) hp

theorem debuffAll_serves (hr : roster.Keyed) (hp : Serves dice actor m roster p) :
    Draws dice (debuffAll skill targets p) (Serves dice actor m roster) := by
  rw [debuffAll]
  split
  · exact draws_pure hp
  · exact forEach_serves hr (modifierStep_attends rfl) hp

theorem defend_serves (hp : Serves dice actor m roster p) (hf : p.roster.get? f.id = some f) :
    Serves dice actor m roster (defend skill p f) := by
  rw [defend]
  split
  · exact hp.update hf (.change f.mp true .refl)
  · exact hp.update hf (.change f.mp true (.single (.add _ "buff" rfl)))

theorem perform_serves {rules : Rules} (hr : roster.Keyed)
    (hactor : roster.get? actor.id = some actor) (hid : f.id = actor.id)
    (hp : Serves dice actor (.skill skill) roster p) (hf : p.roster.get? f.id = some f) :
    Draws dice (perform rules f skill targets p) (Serves dice actor (.skill skill) roster) := by
  rw [perform, hid]
  split
  next => exact forEach_serves hr attackStep_attends hp
  next => exact forEach_serves hr attackStep_attends hp
  next hkind => exact forEach_serves hr (healStep_attends hkind hactor) hp
  next => exact buffAll_serves hr hp
  next => exact debuffAll_serves hr hp
  next => exact draws_pure (defend_serves hp hf)
  next =>
    refine (buffAll_serves hr hp).bind fun q hq => (debuffAll_serves hr hq).bind fun q' hq' => ?_
    split
    · exact forEach_serves hr attackStep_attends hq'
    · exact draws_pure hq'
  next => exact draws_pure hp

theorem refuse_serves {why : Refusal} :
    Draws dice (liftM (refuse roster why) : Attempt _)
      fun x => roster.Treated (Treatment dice actor m) x.2 := by
  refine draws_lift fun x hx => ?_
  simp only [refuse, Fallible.bind_eq_ok, Fallible.leaving_eq_ok, Fallible.pure_eq,
    Except.ok.injEq] at hx
  obtain ⟨message, -, rfl⟩ := hx
  exact .refl

theorem useSkill_treats {rules : Rules} (hr : roster.Keyed)
    (hactor : roster.get? actor.id = some actor) :
    Draws dice (useSkill rules roster actor skill targets)
      fun x => roster.Treated (Treatment dice actor (.skill skill)) x.2 := by
  rw [useSkill]
  split
  · exact refuse_serves
  next hcan =>
    refine (draws_lift fun _ => Fallible.mapError_eq_ok.1).bind fun paid hpaid => ?_
    have htreat : Treatment dice actor (.skill skill) actor paid := .pay hcan hpaid
    have hid : paid.id = actor.id := htreat.id_eq
    have hstart : Serves dice actor (.skill skill) roster
        { roster := roster.insert actor.id paid } := by
      have := Roster.Treated.single hactor htreat
      rwa [hid] at this
    have hpaid : (roster.insert actor.id paid).get? paid.id = some paid := by
      rw [Table.get?_insert, if_pos hid]
    exact (perform_serves hr hactor hid hstart hpaid).bind fun p hp => draws_pure hp

theorem itemRevive_attends (huse : item.use = .revive) :
    Attends dice actor (.item item targets) roster targets (itemRevive item) := by
  intro p f htarget hp hf
  rw [itemRevive]
  split
  · exact draws_pure hp
  next hfallen =>
    refine (draws_lift fun _ => Fallible.leaving_eq_ok.1).bind fun n hn => draws_pure ?_
    exact hp.update hf (.revive huse htarget (by simpa using hfallen) hn)

theorem itemHealHp_attends (huse : item.use = .healHp) :
    Attends dice actor (.item item targets) roster ids (itemHealHp item) := by
  intro p f _ hp hf
  refine (draws_lift fun _ => Fallible.mapError_eq_ok.1).bind ?_
  rintro ⟨after, gained⟩ hafter
  exact draws_pure (hp.update hf (.heal huse hafter))

theorem itemHealMp_attends : Attends dice actor m roster ids (itemHealMp item) := by
  intro p f _ hp hf
  refine (draws_lift fun _ => Fallible.mapError_eq_ok.1).bind ?_
  rintro ⟨after, gained⟩ hafter
  obtain ⟨mp, rfl⟩ := Fighter.restoreMp_eq_ok hafter
  exact draws_pure (hp.update hf (.change mp f.isDefending .refl))

theorem itemDamage_attends (huse : item.use = .damage) :
    Attends dice actor (.item item targets) roster ids (itemDamage item) := by
  intro p f _ hp hf
  exact (draws_lift fun _ => Fallible.leaving_eq_ok.1).bind fun after hafter =>
    draws_pure (hp.strike huse hf hafter)

theorem itemCure_attends : Attends dice actor m roster ids itemCure := by
  intro p f _ hp hf
  exact draws_pure (hp.update hf (.change f.mp f.isDefending (.single .cure)))

theorem applyItem_serves (hr : roster.Keyed)
    (hp : Serves dice actor (.item item targets) roster p) :
    Draws dice (applyItem item targets p) (Serves dice actor (.item item targets) roster) := by
  rw [applyItem]
  split
  next huse => exact forEach_serves hr (itemHealHp_attends huse) hp
  next => exact forEach_serves hr itemHealMp_attends hp
  next huse => exact forEach_serves hr (itemRevive_attends huse) hp
  next =>
    split
    · exact draws_pure hp
    · exact forEach_serves hr (modifierStep_attends rfl) hp
  next huse => exact forEach_serves hr (itemDamage_attends huse) hp
  next => exact forEach_serves hr itemCure_attends hp
  next => exact draws_pure hp
  next => exact draws_pure hp

theorem useItem_treats (hr : roster.Keyed) :
    Draws dice (useItem roster actor item targets)
      fun x => roster.Treated (Treatment dice actor (.item item targets)) x.2 := by
  rw [useItem]
  split
  · exact refuse_serves
  · have hstart : Serves dice actor (.item item targets) roster { roster } := .refl
    exact (applyItem_serves hr hstart).bind fun p hp => draws_pure hp

end Action

end Skirmish

import Skirmish.Proofs.Battle.Report
import Skirmish.Proofs.Battle.Standing
import Skirmish.Proofs.Number.Sums

namespace Skirmish

namespace Quantity

variable {current limit amount sum gained : Quantity}

/-- The sum, which ends at the limit, is below what there was, or so is the difference, only for
what exceeded the limit, or for an integer that no float holds. -/
theorem restored_iff (hamount : le 0 amount = true) (hsum : current.add amount = .ok sum)
    (hgained : (limit.min sum).sub current = .ok gained) :
    ((limit.min sum).lt current = true ∨ gained.lt 0 = true) ↔
      limit.lt current = true ∨
        ¬current.Faithful ∧ sum.lt current = true ∧ sum.lt limit = true := by
  have hlower : ((limit.min sum).lt current = true ∨ gained.lt 0 = true) ↔
      (limit.min sum).lt current = true :=
    ⟨fun h => h.elim id (lt_of_sub_lt_zero hgained), .inl⟩
  have hslip : sum.lt current = true → ¬current.Faithful := by
    intro hless hfaithful
    rw [not_lt_of_add hamount hfaithful hsum] at hless
    cases hless
  rw [hlower, min]
  split
  next hbelow =>
    constructor
    · intro hless
      exact .inr ⟨hslip hless, hless, hbelow⟩
    · rintro (hover | ⟨-, hless, -⟩)
      · exact lt_trans hbelow hover
      · exact hless
  next hreached =>
    constructor
    · exact .inl
    · rintro (hover | ⟨-, -, hbelow⟩)
      · exact hover
      · exact absurd hbelow hreached

end Quantity

inductive Pool where
  | hp | mp

namespace Pool

def current : Pool → Fighter → Quantity
  | hp => Fighter.hp
  | mp => Fighter.mp

def limit : Pool → Fighter → Quantity
  | hp => Fighter.maxHp
  | mp => Fighter.maxMp

def restore : Pool → Fighter → Quantity → Fighter.Result (Fighter × Quantity)
  | hp => Fighter.restoreHp
  | mp => Fighter.restoreMp

def ofUse? : Item.Use → Option Pool
  | .healHp => some hp
  | .healMp => some mp
  | _ => none

variable {pool : Pool} {f g : Fighter} {amount gained : Quantity}

theorem restore_eq_ok (h : pool.restore f amount = .ok (g, gained)) :
    ∃ sum, (pool.current f).add amount = .ok sum ∧
      pool.current g = (pool.limit f).min sum ∧ (pool.current g).sub (pool.current f) = .ok gained ∧
      g.isAlive = f.isAlive := by
  cases pool with
  | hp =>
    obtain ⟨sum, hsum, h⟩ := Fallible.bind_eq_ok.1 h
    obtain ⟨gained, hgained, h⟩ := Fallible.bind_eq_ok.1 h
    cases h
    exact ⟨sum, Fallible.leaving_eq_ok.1 hsum, rfl, Fallible.leaving_eq_ok.1 hgained, rfl⟩
  | mp =>
    obtain ⟨sum, hsum, h⟩ := Fallible.bind_eq_ok.1 h
    obtain ⟨gained, hgained, h⟩ := Fallible.bind_eq_ok.1 h
    cases h
    exact ⟨sum, Fallible.leaving_eq_ok.1 hsum, rfl, Fallible.leaving_eq_ok.1 hgained, rfl⟩

theorem isSome_ofUse? {use : Item.Use} (h : (ofUse? use).isSome) :
    use = .healHp ∨ use = .healMp := by
  cases use with
  | healHp => exact .inl rfl
  | healMp => exact .inr rfl
  | _ => cases h

end Pool

/-- One heal: what was meant for whom, and what came of it. -/
structure Heal where
  pool : Pool
  target : Fighter
  amount : Quantity
  healed : Fighter
  gained : Quantity

namespace Heal

variable {h : Heal}

def Holds (h : Heal) : Prop := h.pool.restore h.target h.amount = .ok (h.healed, h.gained)

/-- The target is left with less than it had, or a negative amount is reported. -/
def Hurts (h : Heal) : Prop :=
  (h.pool.current h.healed).lt (h.pool.current h.target) = true ∨ h.gained.lt 0 = true

def Overfull (h : Heal) : Prop := (h.pool.limit h.target).lt (h.pool.current h.target) = true

/-- The target has an integer that no float holds, and adding rounds it down, below the maximum. -/
def Slips (h : Heal) : Prop :=
  ¬(h.pool.current h.target).Faithful ∧
    ∃ sum, (h.pool.current h.target).add h.amount = .ok sum ∧
      sum.lt (h.pool.current h.target) = true ∧ sum.lt (h.pool.limit h.target) = true

theorem Holds.hurts_iff (hholds : h.Holds) (hamount : Quantity.le 0 h.amount = true) :
    h.Hurts ↔ h.Overfull ∨ h.Slips := by
  obtain ⟨sum, hsum, hcurrent, hgained, -⟩ := Pool.restore_eq_ok hholds
  have hslips : h.Slips ↔ ¬(h.pool.current h.target).Faithful ∧
      sum.lt (h.pool.current h.target) = true ∧ sum.lt (h.pool.limit h.target) = true := by
    rw [Slips, hsum]
    simp
  rw [Hurts, Overfull, hslips, hcurrent]
  exact Quantity.restored_iff hamount hsum (hcurrent ▸ hgained)

def effect (h : Heal) : Action.Effect :=
  match h.pool with
  | .hp => { targetId := h.target.id, kind := .heal, value := h.gained }
  | .mp => { targetId := h.target.id, kind := .healMp, value := h.gained, stat := some "MP" }

end Heal

/-- The living fighters under the ids are healed one after the other, each as it is met. -/
inductive Heals (gives : Roster → Heal → Prop) : List String → Roster → List Heal → Roster → Prop
  | done {r : Roster} : Heals gives [] r [] r
  | heal {id : String} {ids : List String} {r r' : Roster} {h : Heal} {hs : List Heal}
      (hmet : r.get? id = some h.target) (halive : h.target.isAlive = true) (hholds : h.Holds)
      (hgives : gives r h) (rest : Heals gives ids (r.insert h.healed.id h.healed) hs r') :
      Heals gives (id :: ids) r (h :: hs) r'

section

variable {gives : Roster → Heal → Prop} {ids : List String} {id : String} {r r' : Roster}
  {hs : List Heal}

theorem Heals.holds {h : Heal} (hheals : Heals gives ids r hs r') (hmem : h ∈ hs) : h.Holds := by
  induction hheals with
  | done => cases hmem
  | heal _ _ hholds _ _ ih =>
    rcases List.mem_cons.1 hmem with rfl | hrest
    · exact hholds
    · exact ih hrest

theorem Heals.single (hheals : Heals gives [id] r hs r') :
    ∃ h : Heal, hs = [h] ∧ r.get? id = some h.target ∧ gives r h := by
  cases hheals with
  | heal hmet _ _ hgives rest =>
    cases rest
    exact ⟨_, rfl, hmet, hgives⟩

end

namespace Action

open Chance

variable {gives : Roster → Heal → Prop} {item : Item} {skill : Skill} {p : Progress}
  {actorId : String} {ids : List String}

def Restores (gives : Roster → Heal → Prop) (step : Step) : Prop :=
  ∀ p f, Yields (step p f) fun p' =>
    ∃ h : Heal, h.target = f ∧ h.Holds ∧ gives p.roster h ∧ p' = p.record h.healed h.effect

theorem isAlive_insert {r : Roster} {f : Fighter} {id : String} (hf : f.isAlive = true)
    (hid : r.isAlive id = true) : Roster.isAlive (r.insert f.id f) id = true := by
  rw [Roster.isAlive, Table.get?_insert]
  split
  · exact hf
  · exact hid

theorem livingIds_single (r : Roster) (id : String) :
    (r.get? id).filter Fighter.isAlive = none ∧ livingIds r [id] = [] ∨
      ∃ f, (r.get? id).filter Fighter.isAlive = some f ∧ r.get? id = some f ∧
        f.isAlive = true ∧ livingIds r [id] = [id] := by
  rw [livingIds, List.filter_singleton, Roster.isAlive]
  cases r.get? id with
  | none => exact .inl ⟨rfl, rfl⟩
  | some f =>
    cases halive : f.isAlive with
    | false => exact .inl (by simp [halive])
    | true => exact .inr ⟨f, by simp [halive]⟩

theorem forEach_heals {step : Step} (hstep : Restores gives step)
    (halive : ∀ id ∈ ids, p.roster.isAlive id = true) :
    Yields (forEach step p ids) fun p' => ∃ hs, Heals gives ids p.roster hs p'.roster ∧
      p'.effects = p.effects ++ hs.map Heal.effect := by
  induction ids generalizing p with
  | nil => exact yields_pure ⟨[], .done, by simp⟩
  | cons id ids ih =>
      have hid := halive id List.mem_cons_self
      rw [forEach]
      split
      next hnone => simp [Roster.isAlive, hnone] at hid
      next f hf =>
        have hlives : f.isAlive = true := by simpa [Roster.isAlive, hf] using hid
        refine (hstep p f).bind ?_
        rintro p' ⟨h, rfl, hholds, hgives, rfl⟩
        obtain ⟨-, -, -, -, hstays⟩ := Pool.restore_eq_ok hholds
        have hrest : ∀ x ∈ ids, (p.record h.healed h.effect).roster.isAlive x = true :=
          fun x hx => isAlive_insert (hstays.trans hlives) (halive x (List.mem_cons_of_mem id hx))
        intro dice q dice' hrun
        obtain ⟨hs, hheals, heffects⟩ := ih hrest dice q dice' hrun
        refine ⟨h :: hs, .heal hf hlives hholds hgives hheals, ?_⟩
        rw [heffects]
        simp [Progress.record]

/-- The living among the targets are healed, and that is all that is told of. -/
def Mends (gives : Roster → Heal → Prop) (start : Roster) (targets : List String) (r : Roster)
    (effects : List Effect) : Prop :=
  ∃ hs, Heals gives (livingIds start targets) start hs r ∧ effects = hs.map Heal.effect

variable {roster roster' : Roster} {targets : List String}

theorem forLiving_mends {step : Step} (hstep : Restores gives step) :
    Yields (forLiving targets step { roster }) fun p =>
      Mends gives roster targets p.roster p.effects :=
  forEach_heals hstep fun _ hid => (List.mem_filter.1 hid).2

def Cures (actorId : String) (skill : Skill) (r : Roster) (h : Heal) : Prop :=
  h.pool = .hp ∧ ∃ dice n dice', h.amount = .whole n ∧
    (Damage.healing ((r.get? actorId).getD h.target) (skill.power.getD defaultHealing)).run.run
      dice = (.ok n, dice')

theorem healStep_restores : Restores (Cures actorId skill) (healStep actorId skill) := by
  intro p f
  refine ((yields_outcome _).adapt _).bind fun n hn =>
    (yields_lift fun _ => Fallible.mapError_eq_ok.1).bind ?_
  obtain ⟨dice, dice', hrun⟩ := hn
  rintro ⟨after, gained⟩ hafter
  exact yields_pure ⟨⟨.hp, f, .whole n, after, gained⟩, rfl, hafter,
    ⟨rfl, dice, n, dice', rfl, hrun⟩, rfl⟩

def Dose (pool? : Option Pool) (amount : Quantity) (_ : Roster) (h : Heal) : Prop :=
  pool? = some h.pool ∧ h.amount = amount

theorem itemHealHp_restores : Restores (Dose (some .hp) item.value) (itemHealHp item) := by
  intro p f
  refine (yields_lift fun _ => Fallible.mapError_eq_ok.1).bind ?_
  rintro ⟨after, gained⟩ hafter
  exact yields_pure ⟨⟨.hp, f, item.value, after, gained⟩, rfl, hafter, ⟨rfl, rfl⟩, rfl⟩

theorem itemHealMp_restores : Restores (Dose (some .mp) item.value) (itemHealMp item) := by
  intro p f
  refine (yields_lift fun _ => Fallible.mapError_eq_ok.1).bind ?_
  rintro ⟨after, gained⟩ hafter
  exact yields_pure ⟨⟨.mp, f, item.value, after, gained⟩, rfl, hafter, ⟨rfl, rfl⟩, rfl⟩

variable {actor : Fighter} {report : Report} {dice dice' : Dice} {rules : Rules}

theorem applyItem_mends (hrestores : (Pool.ofUse? item.use).isSome) :
    Yields (applyItem item targets { roster }) fun p =>
      Mends (Dose (Pool.ofUse? item.use) item.value) roster targets p.roster p.effects := by
  rcases Pool.isSome_ofUse? hrestores with huse | huse
  · rw [applyItem, huse]
    exact forLiving_mends itemHealHp_restores
  · rw [applyItem, huse]
    exact forLiving_mends itemHealMp_restores

theorem useItem_mends (hrestores : (Pool.ofUse? item.use).isSome)
    (hrun : (useItem roster actor item targets).run.run dice = (.ok (report, roster'), dice')) :
    Mends (Dose (Pool.ofUse? item.use) item.value) roster targets roster' report.effects := by
  have hknown : useItem roster actor item targets = (do
      let p ← applyItem item targets { roster }
      return (p.report actor item.name, p.roster)) := by
    rcases Pool.isSome_ofUse? hrestores with huse | huse
    · rw [useItem, huse]
    · rw [useItem, huse]
  have hmends : Yields (useItem roster actor item targets) fun x =>
      Mends (Dose (Pool.ofUse? item.use) item.value) roster targets x.2 x.1.effects := by
    rw [hknown]
    exact (applyItem_mends hrestores).bind fun p hp => yields_pure hp
  exact hmends dice _ dice' hrun

theorem useSkill_mends (hkind : skill.kind = .healing) (hcan : refusal? actor skill = none)
    (hrun : (useSkill rules roster actor skill targets).run.run dice =
      (.ok (report, roster'), dice')) :
    ∃ paid, pay actor skill = .ok paid ∧
      Mends (Cures actor.id skill) (roster.insert actor.id paid) targets roster'
        report.effects := by
  have hmends : Yields (useSkill rules roster actor skill targets) fun x =>
      ∃ paid, pay actor skill = .ok paid ∧
        Mends (Cures actor.id skill) (roster.insert actor.id paid) targets x.2 x.1.effects := by
    rw [useSkill, hcan]
    refine (yields_lift fun _ => Fallible.mapError_eq_ok.1).bind fun paid hpaid => ?_
    have hperform : Yields (perform rules paid skill targets
        { roster := roster.insert actor.id paid }) fun p =>
          Mends (Cures actor.id skill) (roster.insert actor.id paid) targets p.roster
            p.effects := by
      obtain ⟨hp, mp, rfl⟩ := pay_eq_ok hpaid
      rw [perform, hkind]
      exact forLiving_mends healStep_restores
    exact hperform.bind fun p hp => yields_pure ⟨paid, hpaid, hp⟩
  exact hmends dice _ dice' hrun

end Action

namespace Battle

variable {b b' : Battle} {amount : Quantity} {target : Option String}

theorem perform_heal (hok : Battle.perform b (.heal amount target) = .ok b') :
    b.living? target = none ∧ b' = b ∨
      ∃ (h : Heal) (shown : String), b.living? target = some h.target ∧ h.pool = .hp ∧
        h.amount = amount ∧ h.Holds ∧ h.gained.shown = .ok shown ∧
        b' = (b.setFighter h.healed).say (h.healed.name ++ " recovered " ++ shown ++ " HP!") := by
  rw [perform] at hok
  cases htarget : b.living? target with
  | none =>
    rw [htarget] at hok
    cases hok
    exact .inl ⟨rfl, rfl⟩
  | some f =>
    rw [htarget, withFighter, scriptHeal] at hok
    simp only [arithmetic, Fallible.bind_eq_ok, Fallible.leaving_eq_ok,
      Fallible.mapError_eq_ok] at hok
    obtain ⟨⟨g, gained⟩, hholds, shown, hshown, hok⟩ := hok
    cases hok
    exact .inr ⟨⟨.hp, f, amount, g, gained⟩, shown, rfl, rfl, rfl, hholds, hshown, rfl⟩

end Battle

inductive Remedy where
  | event (amount : Quantity) (target : Option String)
  | item (actor : Fighter) (item : Item) (targets : List String)
  | skill (rules : Action.Rules) (actor : Fighter) (skill : Skill) (targets : List String)

inductive Telling where
  | line (text : String)
  | effect (e : Action.Effect)

def Heal.Tells (h : Heal) : Telling → Prop
  | .line text => ∃ shown, h.gained.shown = .ok shown ∧
      text = h.healed.name ++ " recovered " ++ shown ++ " HP!"
  | .effect e => e = h.effect

open Skirmish.Action

namespace Remedy

variable {m : Remedy} {b b' : Battle} {r : Roster} {told : List Telling} {amount : Quantity}
  {target : Option String}

def Works : Remedy → Prop
  | event _ _ => True
  | item _ i _ => (Pool.ofUse? i.use).isSome
  | skill _ actor s _ => s.kind = .healing ∧ refusal? actor s = none

/-- Used in a battle, it leaves these fighters and is told of like this. -/
inductive Comes (b : Battle) : Remedy → Roster → List Telling → Prop
  | event {b' : Battle} {amount : Quantity} {target : Option String} {lines : List String}
      (hrun : Battle.perform b (.heal amount target) = .ok b') (hlog : b'.log = b.log ++ lines) :
      Comes b (event amount target) b'.fighters (lines.map .line)
  | item {actor : Fighter} {i : Item} {targets : List String} {dice dice' : Dice}
      {report : Report} {r : Roster}
      (hrun : (useItem b.fighters actor i targets).run.run dice = (.ok (report, r), dice')) :
      Comes b (item actor i targets) r (report.effects.map .effect)
  | skill {rules : Rules} {actor : Fighter} {s : Skill} {targets : List String}
      {dice dice' : Dice} {report : Report} {r : Roster}
      (hrun : (useSkill rules b.fighters actor s targets).run.run dice = (.ok (report, r), dice')) :
      Comes b (skill rules actor s targets) r (report.effects.map .effect)

/-- The fighters as they stand when the first is healed. -/
def Opens (b : Battle) : Remedy → Roster → Prop
  | event _ _, start => start = b.fighters
  | item _ _ _, start => start = b.fighters
  | skill _ actor s _, start =>
    ∃ paid, pay actor s = .ok paid ∧ start = b.fighters.insert actor.id paid

/-- Whom it is for; an event that names nobody is for whoever has the turn. -/
def aim (b : Battle) : Remedy → List String
  | event _ none => (b.queue[b.index]?).toList.map (·.id)
  | event _ (some id) => [id]
  | item _ _ targets => targets
  | skill _ _ _ targets => targets

def Gives : Remedy → Roster → Heal → Prop
  | event amount _ => Dose (some .hp) amount
  | item _ i _ => Dose (Pool.ofUse? i.use) i.value
  | skill _ actor s _ => Cures actor.id s

theorem livingIds_aim (b : Battle) (amount : Quantity) (target : Option String) :
    b.living? target = none ∧ livingIds b.fighters (aim b (event amount target)) = [] ∨
      ∃ id f, b.living? target = some f ∧ b.fighters.get? id = some f ∧ f.isAlive = true ∧
        livingIds b.fighters (aim b (event amount target)) = [id] := by
  cases target with
  | some id => exact (livingIds_single b.fighters id).imp_right fun h => ⟨id, h⟩
  | none =>
    simp only [Battle.living?, Battle.target?, Battle.current?, aim]
    cases b.queue[b.index]? with
    | none => exact .inl ⟨rfl, rfl⟩
    | some e => exact (livingIds_single b.fighters e.id).imp_right fun h => ⟨e.id, h⟩

theorem event_heals {lines : List String}
    (hrun : Battle.perform b (.heal amount target) = .ok b') (hlog : b'.log = b.log ++ lines) :
    ∃ hs, Heals (Dose (some .hp) amount) (livingIds b.fighters (aim b (event amount target)))
      b.fighters hs b'.fighters ∧ List.Forall₂ Heal.Tells hs (lines.map .line) := by
  have haim := livingIds_aim b amount target
  rcases Battle.perform_heal hrun with
    ⟨hnone, rfl⟩ | ⟨h, shown, htarget, hpool, hamount, hholds, hshown, rfl⟩
  · rcases haim with ⟨-, hids⟩ | ⟨id, f, hf, -⟩
    · obtain rfl : lines = [] := by simpa using hlog
      rw [hids]
      exact ⟨[], .done, .nil⟩
    · cases hnone.symm.trans hf
  · rcases haim with ⟨hnone, -⟩ | ⟨id, f, hf, hmet, halive, hids⟩
    · cases hnone.symm.trans htarget
    · obtain rfl : f = h.target := Option.some.inj (hf.symm.trans htarget)
      obtain rfl := List.append_cancel_left hlog
      rw [hids]
      have hdose : Dose (some .hp) amount b.fighters h := ⟨by rw [hpool], hamount⟩
      exact ⟨[h], .heal hmet halive hholds hdose .done, .cons ⟨shown, hshown, rfl⟩ .nil⟩

theorem tells_effects (hs : List Heal) :
    List.Forall₂ Heal.Tells hs ((hs.map Heal.effect).map .effect) := by
  rw [List.map_map, List.forall₂_map_right_iff, List.forall₂_same]
  exact fun h _ => rfl

theorem Comes.heals (hcomes : m.Comes b r told) (hworks : m.Works) :
    ∃ start hs, m.Opens b start ∧ Heals m.Gives (livingIds start (m.aim b)) start hs r ∧
      List.Forall₂ Heal.Tells hs told := by
  cases hcomes with
  | event hrun hlog =>
    obtain ⟨hs, hheals, htells⟩ := event_heals hrun hlog
    exact ⟨b.fighters, hs, rfl, hheals, htells⟩
  | item hrun =>
    obtain ⟨hs, hheals, heffects⟩ := useItem_mends hworks hrun
    exact ⟨b.fighters, hs, rfl, hheals, heffects ▸ tells_effects hs⟩
  | skill hrun =>
    obtain ⟨paid, hpaid, hs, hheals, heffects⟩ := useSkill_mends hworks.1 hworks.2 hrun
    exact ⟨_, hs, ⟨paid, hpaid, rfl⟩, hheals, heffects ▸ tells_effects hs⟩

end Remedy

/-- A remedy changes fighters by heals alone, each of a fighter as it is then met, and tells of
them. A heal of an amount that is not negative takes something from its target, or is told as a
negative gain, exactly if the target has more than its maximum or rounding slips. -/
theorem heal_hurts_iff {m : Remedy} {b : Battle} {r : Roster} {told : List Telling}
    (hworks : m.Works) (hcomes : m.Comes b r told) :
    ∃ start hs, m.Opens b start ∧ Heals m.Gives (livingIds start (m.aim b)) start hs r ∧
      List.Forall₂ Heal.Tells hs told ∧
      ∀ h ∈ hs, Quantity.le 0 h.amount = true → (h.Hurts ↔ h.Overfull ∨ h.Slips) := by
  obtain ⟨start, hs, hopens, hheals, htells⟩ := hcomes.heals hworks
  refine ⟨start, hs, hopens, hheals, htells, fun h hmem hamount => ?_⟩
  exact (hheals.holds hmem).hurts_iff hamount

open Battle

theorem healing_runs (e : Event) (amount : Quantity) (overfull slips : Bool) (line : String)
    (hok : (do
      let b₁ ← (plain none).assemble none (some [.plain "slime"])
      let b ← b₁.startWithin 2
      let c ← Battle.perform b e
      let d ← Battle.perform c (.heal amount (some "hero"))
      return ((c.living? (some "hero")).map fun f : Fighter => (f.maxHp.lt f.hp,
        (f.hp.add amount).toOption.any fun sum : Quantity => sum.lt f.hp),
        d.log.getLast?)).toOption = some (some (overfull, slips), some line)) :
    ∃ b₁ c d f, (plain none).assemble none (some [.plain "slime"]) = .ok b₁ ∧
      Course (fun _ => True) b₁ c ∧ Battle.perform c (.heal amount (some "hero")) = .ok d ∧
      c.living? (some "hero") = some f ∧ f.maxHp.lt f.hp = overfull ∧
      (f.hp.add amount).toOption.any (fun sum : Quantity => sum.lt f.hp) = slips ∧
      d.log.getLast? = some line := by
  obtain ⟨found, h, hfound⟩ := Fallible.exists_eq_ok_and (f := id) (by simpa using hok)
  simp only [Fallible.bind_eq_ok, Except.ok.injEq] at h
  obtain ⟨b₁, h₁, b, hstart, c, hevent, d, hheal, rfl⟩ := h
  obtain ⟨⟨f, hf, hover, hslips⟩, hline⟩ : (∃ f, c.living? (some "hero") = some f ∧
      f.maxHp.lt f.hp = overfull ∧
      (f.hp.add amount).toOption.any (fun sum : Quantity => sum.lt f.hp) = slips) ∧
      d.log.getLast? = some line := by
    simpa using hfound
  have hcourse : Course (fun _ => True) b₁ c := by
    refine .tail (.single ⟨.start, trivial, fun _ => phase_of_assemble h₁,
      start_of_startWithin hstart⟩) ?_
    exact ⟨.perform e, trivial, by rintro ⟨⟩, hevent⟩
  exact ⟨b₁, c, d, f, h₁, hcourse, hheal, hf, hover, hslips, hline⟩

theorem heal_hurts_iff_wounded :
    ∃ (b₁ c d : Battle) (h : Heal),
      (plain none).assemble none (some [.plain "slime"]) = .ok b₁ ∧
      Course (fun _ => True) b₁ c ∧ Battle.perform c (.heal 3 (some "hero")) = .ok d ∧
      Heals (Dose (some .hp) 3) ["hero"] c.fighters [h] d.fighters ∧ ¬h.Hurts := by
  obtain ⟨b₁, c, d, f, h₁, hcourse, hheal, hf, hover, hslips, -⟩ :=
    healing_runs (.damage 5 (some "hero")) 3 false false "hero recovered 3 HP!" (by decide +kernel)
  obtain ⟨lines, hlog⟩ : ∃ lines, d.log = c.log ++ lines := by
    rcases perform_heal hheal with ⟨-, rfl⟩ | ⟨h, shown, -, -, -, -, -, rfl⟩
    · exact ⟨[], (List.append_nil _).symm⟩
    · exact ⟨_, rfl⟩
  obtain ⟨start, hs, rfl, hheals, -, hhurts⟩ :=
    heal_hurts_iff (m := .event 3 (some "hero")) trivial (.event hheal hlog)
  rcases livingIds_single c.fighters "hero" with ⟨hnone, -⟩ | ⟨g, hg, hmet, -, hids⟩
  · cases hnone.symm.trans hf
  · obtain rfl : g = f := Option.some.inj (hg.symm.trans hf)
    rw [show Remedy.aim c (.event 3 (some "hero")) = ["hero"] from rfl, hids] at hheals
    obtain ⟨h, rfl, htarget, hpool, hamount⟩ := hheals.single
    obtain rfl : g = h.target := Option.some.inj (hmet.symm.trans htarget)
    refine ⟨b₁, c, d, h, h₁, hcourse, hheal, hheals, ?_⟩
    have hnonneg : Quantity.le 0 h.amount = true := by
      rw [hamount]
      decide +kernel
    rw [hhurts h List.mem_cons_self hnonneg, Heal.Overfull, Heal.Slips, ← Option.some.inj hpool,
      hamount]
    rintro (hless | ⟨-, sum, hsum, hless, -⟩)
    · cases hless.symm.trans hover
    · rw [show h.target.hp.add 3 = .ok sum from hsum] at hslips
      cases hless.symm.trans hslips

/-- A hero whose maximum has been lowered by a buff is healed down to it. -/
theorem heal_hurts_weakened :
    ∃ (b₁ c d : Battle) (h : Heal),
      (plain none).assemble none (some [.plain "slime"]) = .ok b₁ ∧
      Course (fun _ => True) b₁ c ∧ Battle.perform c (.heal 10 (some "hero")) = .ok d ∧
      c.living? (some "hero") = some h.target ∧ h.amount = 10 ∧
      Quantity.le 0 h.amount = true ∧ h.Holds ∧ h.Hurts ∧
      d.log.getLast? = some "hero recovered -20 HP!" := by
  obtain ⟨b₁, c, d, f, h₁, hcourse, hheal, hf, hover, -, hline⟩ :=
    healing_runs (.buff "MaxHP" (-20) (some "hero") none) 10 true false "hero recovered -20 HP!"
      (by decide +kernel)
  refine ⟨b₁, c, d, ?_⟩
  rcases perform_heal hheal with ⟨hnone, -⟩ | ⟨h, shown, htarget, hpool, hamount, hholds, -, -⟩
  · cases hnone.symm.trans hf
  · obtain rfl : h.target = f := Option.some.inj (htarget.symm.trans hf)
    have hnonneg : Quantity.le 0 h.amount = true := by
      rw [hamount]
      decide +kernel
    have hoverfull : h.Overfull := by rwa [Heal.Overfull, hpool]
    exact ⟨h, h₁, hcourse, hheal, htarget, hamount, hnonneg, hholds,
      (hholds.hurts_iff hnonneg).2 (.inl hoverfull), hline⟩

end Skirmish

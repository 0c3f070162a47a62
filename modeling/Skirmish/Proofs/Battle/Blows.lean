import Skirmish.Proofs.Battle.Muster
import Skirmish.Proofs.Battle.Scope
import Skirmish.Proofs.Number.Losses

namespace Skirmish

namespace Action

open Chance

/-- How one fighter is hit: by a skill on some dice, in the course of an action; or by the bare
hands of an actor. -/
inductive Blow where
  | skill (rules : Rules) (actorId : String) (skill : Skill) (before : Progress) (dice : Dice)
  | hands (battle : Battle) (actor : Fighter)

namespace Blow

def factor : Blow → Quantity
  | skill r _ _ _ _ => r.defendFactor
  | hands b _ => b.config.defendFactor

def base (f : Fighter) : Blow → Quantity.Result Int
  | skill r id s p dice =>
    ((Damage.calculate r.formulas ((p.roster.get? id).getD f) f (damageKind s.kind)
      (s.power.getD defaultPower)).run.run dice).1.map Damage.Hit.damage
  | hands b actor =>
    b.basicDamage (actor.stats.getD "Attack" 10) { f with isDefending := false }

/-- How the share that gets through to one who defends is made whole. -/
def cut : Blow → Quantity → Quantity.Result Int
  | skill _ _ _ _ _ => Quantity.truncate
  | hands _ _ => Quantity.floor

def taken (f : Fighter) (base : Int) (w : Blow) : Quantity.Result Int :=
  if f.isDefending then (Quantity.whole base).mul w.factor >>= w.cut else .ok base

/-- The hit goes through and leaves the second fighter of the first one. -/
def Leaves (f g : Fighter) : Blow → Prop
  | skill r id s p dice =>
    ∃ q dice', (attackStep r id s p f).run.run dice = (.ok q, dice') ∧ q.roster.get? f.id = some g
  | hands b actor =>
    b.fighter? f.id = some f ∧
      ∃ c, b.basicAttack actor [f.id] = .ok c ∧ c.fighter? f.id = some g

/-- The stance of the fighter leaves less than one of the damage. -/
def Parried (f : Fighter) (base : Int) (w : Blow) : Prop :=
  f.isDefending = true ∧ ∃ share, (Quantity.whole base).mul w.factor = .ok share ∧
    share.lt 1 = true

variable {w : Blow} {f g : Fighter} {base damage : Int}

theorem one_le_base (h : w.base f = .ok base) : 1 ≤ base := by
  cases w with
  | skill r id s p dice =>
    rw [Blow.base, Damage.calculate_run] at h
    obtain ⟨hit, hhit, rfl⟩ := Fallible.map_eq_ok.1 h
    exact Damage.one_le_damage_of_resolve hhit
  | hands b actor =>
    simp only [Blow.base, Battle.basicDamage, Fallible.bind_eq_ok] at h
    obtain ⟨sum, -, share, -, amount, -, whole, -, h⟩ := h
    cases h
    exact Int.le_max_left 1 whole

theorem one_le_cut {share : Quantity} (h : w.cut share = .ok damage) :
    1 ≤ damage ↔ share.lt 1 = false := by
  cases w with
  | skill r id s p dice => exact Quantity.one_le_wholePart Quantity.one_le_truncate h
  | hands b actor => exact Quantity.one_le_wholePart Quantity.one_le_floor h

theorem one_le_taken (hbase : 1 ≤ base) (h : w.taken f base = .ok damage) :
    1 ≤ damage ↔ ¬w.Parried f base := by
  rw [taken] at h
  split at h
  next hdefending =>
    obtain ⟨share, hshare, hcut⟩ := Fallible.bind_eq_ok.1 h
    rw [one_le_cut hcut, Parried, hshare]
    simp [hdefending]
  next hstands =>
    cases h
    exact iff_of_true hbase fun hparried => hstands hparried.1

theorem basicDamage_eq {b : Battle} {actor : Fighter} :
    b.basicDamage (actor.stats.getD "Attack" 10) f =
      (hands b actor).base f >>= fun base => (hands b actor).taken f base := by
  simp only [Blow.base, Battle.basicDamage, bind_assoc, pure_bind, Bool.false_eq_true, if_false]
  rfl

/-- Every hit that goes through takes what its base damage comes to. -/
theorem leaves_cases (halive : f.isAlive = true) (h : w.Leaves f g) :
    ∃ base damage, w.base f = .ok base ∧ w.taken f base = .ok damage ∧
      f.takeDamage (.whole damage) = .ok g := by
  cases w with
  | skill r id s p dice =>
    obtain ⟨q, dice', hrun, hg⟩ := h
    obtain ⟨hit, _, hhit, hrest⟩ := run_bind_eq_ok hrun
    obtain ⟨damage, _, hlifted, hrest⟩ := run_bind_eq_ok hrest
    obtain ⟨hdamage, -⟩ := run_lift_eq_ok hlifted
    obtain ⟨after, _, hlifted, hrest⟩ := run_bind_eq_ok hrest
    obtain ⟨hafter, -⟩ := run_lift_eq_ok hlifted
    cases hrest
    have hdamage := Fallible.leaving_eq_ok.1 hdamage
    have hafter := Fallible.leaving_eq_ok.1 hafter
    have hhit := run_adapt_eq_ok hhit
    obtain ⟨hp, isAlive, rfl⟩ := Fighter.takeDamage_eq_ok hafter
    rw [strike_roster, Table.get?_insert, if_pos rfl] at hg
    cases hg
    refine ⟨hit.damage, damage, ?_, hdamage, hafter⟩
    rw [Blow.base, hhit]
    rfl
  | hands b actor =>
    obtain ⟨hf, c, hrun, hg⟩ := h
    have hmet : ((b.say (actor.name ++ " attacks!")).fighter? f.id).filter Fighter.isAlive =
        some f := by
      rw [Option.filter_eq_some_iff]
      exact ⟨hf, halive⟩
    rw [Battle.basicAttack, Battle.basicAttackOn, hmet] at hrun
    simp only [Fallible.bind_eq_ok, Fallible.leaving_eq_ok, Battle.arithmetic,
      Fallible.mapError_eq_ok] at hrun
    obtain ⟨damage, hdamage, after, hafter, hrun⟩ := hrun
    obtain ⟨hp, isAlive, rfl⟩ := Fighter.takeDamage_eq_ok hafter
    have hleft : c.fighter? f.id = some { f with hp, isAlive } := by
      split at hrun
      · cases hrun
        exact (Table.get?_insert _ _ _ _).trans (if_pos rfl)
      · cases hrun
        exact (Table.get?_insert _ _ _ _).trans (if_pos rfl)
    obtain rfl := Option.some.inj (hg.symm.trans hleft)
    obtain ⟨base, hbase, htaken⟩ := Fallible.bind_eq_ok.1 (basicDamage_eq.symm.trans hdamage)
    exact ⟨base, damage, hbase, htaken, hafter⟩

/-- A hit of a living fighter takes all the life that is left, or one point at least, exactly if the
stance does not leave less than one of its damage and rounding does not give back what it takes. -/
theorem loses_iff_not_parried (halive : f.isAlive = true) (hhp : Quantity.lt 0 f.hp = true)
    (h : w.Leaves f g) :
    ∃ base damage, w.base f = .ok base ∧ w.taken f base = .ok damage ∧ 1 ≤ base ∧
      (f.hp.Loses g.hp ↔ ¬w.Parried f base ∧ ¬f.hp.Swallows damage) := by
  obtain ⟨base, damage, hbase, htaken, htakes⟩ := leaves_cases halive h
  have hone := one_le_base hbase
  obtain ⟨rest, hrest, htakes⟩ := Fallible.bind_eq_ok.1 htakes
  cases htakes
  refine ⟨base, damage, hbase, htaken, hone, ?_⟩
  rw [← one_le_taken hone htaken]
  exact Quantity.loses_iff hhp hrest

theorem leaves_of_skill {r : Rules} {id : String} {s : Skill} {p : Progress} {dice : Dice}
    {α : Type} {look : Fighter → α} {seen : α}
    (h : (((attackStep r id s p f).run.run dice).1.toOption.bind fun q =>
      (q.roster.get? f.id).map look) = some seen) :
    ∃ g, (skill r id s p dice).Leaves f g ∧ look g = seen := by
  obtain ⟨q, hq, h⟩ := Fallible.exists_eq_ok_bind h
  obtain ⟨g, hg, hseen⟩ := Option.map_eq_some_iff.1 h
  exact ⟨g, ⟨q, _, Prod.ext hq rfl, hg⟩, hseen⟩

theorem leaves_of_hands {b : Battle} {actor : Fighter} {α : Type} {look : Fighter → α} {seen : α}
    (hf : b.fighter? f.id = some f)
    (h : ((b.basicAttack actor [f.id]).toOption.bind fun c => (c.fighter? f.id).map look) =
      some seen) :
    ∃ g, (hands b actor).Leaves f g ∧ look g = seen := by
  obtain ⟨c, hc, h⟩ := Fallible.exists_eq_ok_bind h
  obtain ⟨g, hg, hseen⟩ := Option.map_eq_some_iff.1 h
  exact ⟨g, ⟨hf, c, hc, hg⟩, hseen⟩

open Tool

def prick : Skill where
  id := "prick"
  name := "Prick"
  kind := .physical
  mpCost := 0
  hpCost := 0
  power := some 1
  value := none
  target := "enemy"
  description := ""
  buff := none
  debuff := none

def pricked (f : Fighter) : Blow :=
  .skill ⟨.standard, .real 0.5⟩ "mage" prick { roster := melee.insert f.id f } {}

def weakling : Fighter := Damage.sample "weakling" (Table.ofList [("Attack", 0)])

def ring (f : Fighter) : Battle :=
  { Battle.plain none with fighters := melee.insert f.id f }

theorem loses_iff_not_parried_pricked :
    ∃ g, (pricked imp).Leaves imp g ∧ imp.hp.Loses g.hp := by
  have hok : (((attackStep ⟨.standard, .real 0.5⟩ "mage" prick
      { roster := melee.insert imp.id imp } imp).run.run {}).1.toOption.bind fun q =>
        (q.roster.get? imp.id).map Fighter.isAlive) = some true := by decide +kernel
  obtain ⟨g, hleaves, -⟩ := leaves_of_skill hok
  obtain ⟨base, damage, -, -, -, hloses⟩ :=
    loses_iff_not_parried (w := pricked imp) rfl (by decide +kernel) hleaves
  refine ⟨g, hleaves, hloses.2 ⟨fun hparried => ?_, fun hswallows => ?_⟩⟩
  · cases hparried.1
  · have hsmall : (Quantity.whole (2 ^ 53)).lt imp.hp = false := by decide +kernel
    cases hsmall.symm.trans hswallows.1

def braced : Fighter := { imp with isDefending := true }

/-- Half of the least damage is none at all, of a skill as of bare hands. -/
theorem not_loses_braced :
    braced.isAlive = true ∧ Quantity.lt 0 braced.hp = true ∧
      ∀ w ∈ [pricked braced, .hands (ring braced) weakling],
        Quantity.lt 0 w.factor = true ∧ w.factor.lt 1 = true ∧
          ∃ g, w.Leaves braced g ∧ ¬braced.hp.Loses g.hp := by
  have hskill : (((attackStep ⟨.standard, .real 0.5⟩ "mage" prick
      { roster := melee.insert braced.id braced } braced).run.run {}).1.toOption.bind fun q =>
        (q.roster.get? braced.id).map fun g => g.hp.lt braced.hp) = some false := by decide +kernel
  have hhands : (((ring braced).basicAttack weakling [braced.id]).toOption.bind fun c =>
      (c.fighter? braced.id).map fun g => g.hp.lt braced.hp) = some false := by decide +kernel
  have hkeeps {g : Fighter} (h : g.hp.lt braced.hp = false) : ¬braced.hp.Loses g.hp :=
    fun hloses => by cases h.symm.trans (Quantity.lt_of_loses hloses)
  refine ⟨rfl, by decide +kernel, fun w hw => ?_⟩
  rcases List.mem_pair.1 hw with rfl | rfl
  · obtain ⟨g, hleaves, hsame⟩ := leaves_of_skill hskill
    exact ⟨by decide +kernel, by decide +kernel, g, hleaves, hkeeps hsame⟩
  · obtain ⟨g, hleaves, hsame⟩ := leaves_of_hands (by rfl) hhands
    exact ⟨by decide +kernel, by decide +kernel, g, hleaves, hkeeps hsame⟩

end Blow

end Action

end Skirmish

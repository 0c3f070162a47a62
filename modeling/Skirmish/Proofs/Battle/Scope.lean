import Skirmish.Proofs.Battle.Damage
import Skirmish.Proofs.Battle.Meetings

namespace Skirmish

namespace Action

open Chance

namespace Tool

def revives : Tool → Bool
  | skill _ _ => false
  | item i => i.use = .revive

def reach (roster : Roster) (actorId : String) (targets : List String) : Tool → List String
  | skill _ _ => actorId :: livingIds roster targets
  | item i => if i.use = .revive then targets else livingIds roster targets

/-- No rule knows it, or the actor cannot pay for it. -/
def Fails (actor : Fighter) : Tool → Prop
  | skill _ s => s.kind ∉ Skill.Kind.known ∨ actor.mp.lt s.mpCost = true ∨
      s.hpCost.isZero = false ∧ actor.hp.le s.hpCost = true
  | item i => i.use ∉ Item.Use.known

variable {t : Tool} {roster roster' : Roster} {actor : Fighter} {targets : List String}
  {report : Report} {dice dice' : Dice} {p : Progress}

theorem refusal?_skill {r : Rules} {s : Skill} (hknown : s.kind ∈ Skill.Kind.known) :
    (skill r s).refusal? actor = none ↔ ¬(skill r s).Fails actor := by
  have hpays : (skill r s).refusal? actor =
      if s.lacksMp actor.mp then some (.notEnoughMp s.mpCost actor.mp)
      else if s.lacksHp actor.hp then some (.notEnoughHp s.hpCost actor.hp) else none := by
    rw [refusal?, Action.refusal?]
    split
    next name hkind =>
      rw [hkind] at hknown
      simp [Skill.Kind.known] at hknown
    next => rfl
  rw [hpays, Fails]
  by_cases hmp : s.lacksMp actor.mp = true
  · simp_all [Skill.lacksMp]
  · by_cases hhp : s.lacksHp actor.hp = true
    · simp_all [Skill.lacksMp, Skill.lacksHp]
    · simp_all [Skill.lacksMp, Skill.lacksHp]

theorem refusal?_eq_none : t.refusal? actor = none ↔ ¬t.Fails actor := by
  cases t with
  | skill r s =>
    by_cases hknown : s.kind ∈ Skill.Kind.known
    · exact refusal?_skill hknown
    · cases hkind : s.kind with
      | other name => simp [refusal?, Action.refusal?, Fails, hkind, Skill.Kind.known]
      | _ => simp [hkind, Skill.Kind.known] at hknown
  | item i => cases huse : i.use <;> simp [refusal?, Fails, huse, Item.Use.known]

theorem use_cases (hrun : (t.use roster actor targets).run.run dice =
      (.ok (report, roster'), dice')) :
    (t.Fails actor ∧ report.success = false ∧ report.effects = [] ∧ report.killed = [] ∧
        roster' = roster ∧ dice' = dice) ∨
      ¬t.Fails actor ∧ ∃ p ps, t.start roster actor = .ok p ∧
        (watchAll (t.sweeps actor.id targets) p).run.run dice = (.ok ps, dice') ∧
        report = (ps.getLastD p).report actor t.name ∧ roster' = (ps.getLastD p).roster := by
  rw [use_eq] at hrun
  cases hrefusal : t.refusal? actor with
  | some why =>
    rw [hrefusal] at hrun
    obtain ⟨hrefuse, rfl⟩ := run_lift_eq_ok hrun
    obtain ⟨message, -, hrefuse⟩ := Fallible.bind_eq_ok.1 hrefuse
    cases hrefuse
    have hfails : t.Fails actor := by
      by_contra hcan
      cases hrefusal.symm.trans (refusal?_eq_none.2 hcan)
    exact .inl ⟨hfails, rfl, rfl, rfl, rfl, rfl⟩
  | none =>
    rw [hrefusal] at hrun
    obtain ⟨p, between, hstart, hgoes⟩ := run_bind_eq_ok hrun
    obtain ⟨hstarts, rfl⟩ := run_lift_eq_ok hstart
    obtain ⟨q, between, hsweeps, hends⟩ := run_bind_eq_ok hgoes
    rw [sweepAll_eq_watchAll] at hsweeps
    obtain ⟨ps, hwatch, rfl⟩ := run_map_eq_ok hsweeps
    cases hends
    exact .inr ⟨refusal?_eq_none.1 hrefusal, p, ps, hstarts, hwatch, rfl, rfl⟩

theorem living_sweep_within {step : Step} (hlinked : Linked false step)
    (hrevives : t.revives = false) :
    (Sweep.living targets step).Within t.revives (t.reach p.roster actor.id targets) p := by
  rw [hrevives]
  refine living_within hlinked ?_
  cases t with
  | skill r s => exact List.subset_cons_self _ _
  | item i =>
    rw [reach, if_neg (by simpa [revives] using hrevives)]
    exact List.Subset.refl _

theorem buffs_within {r : Rules} {k : Skill} {s : Sweep} (hs : s ∈ buffs k targets) :
    s.Within false ((skill r k).reach p.roster actor.id targets) p := by
  obtain ⟨c, -, rfl⟩ := Option.map_eq_some_iff.1 (Option.mem_toList.1 hs)
  exact living_sweep_within (t := skill r k) buffStep_linked rfl

theorem debuffs_within {r : Rules} {k : Skill} {s : Sweep} (hs : s ∈ debuffs k targets) :
    s.Within false ((skill r k).reach p.roster actor.id targets) p := by
  obtain ⟨c, -, rfl⟩ := Option.map_eq_some_iff.1 (Option.mem_toList.1 hs)
  exact living_sweep_within (t := skill r k) debuffStep_linked rfl

theorem attack_within {r : Rules} {k : Skill} {s : Sweep}
    (hs : s ∈ [attack r k actor.id targets]) :
    s.Within false ((skill r k).reach p.roster actor.id targets) p := by
  obtain rfl := List.mem_singleton.1 hs
  exact living_sweep_within (t := skill r k) attackStep_linked rfl

theorem sweeps_within : ∀ s ∈ t.sweeps actor.id targets,
    s.Within t.revives (t.reach p.roster actor.id targets) p := by
  intro s hs
  cases t with
  | skill r k =>
    rw [sweeps] at hs
    split at hs
    next => exact attack_within hs
    next => exact attack_within hs
    next =>
      obtain rfl := List.mem_singleton.1 hs
      exact living_sweep_within healStep_linked rfl
    next => exact buffs_within hs
    next => exact debuffs_within hs
    next =>
      obtain rfl := List.mem_singleton.1 hs
      exact ⟨defend_linked, fun q _ => List.cons_subset.2 ⟨List.mem_cons_self, List.nil_subset _⟩⟩
    next =>
      rcases List.mem_append.1 hs with hs | hs
      · exact (List.mem_append.1 hs).elim buffs_within debuffs_within
      · split at hs
        · exact attack_within hs
        · cases hs
    next => cases hs
  | item i =>
    by_cases huse : i.use = .revive
    · simp only [sweeps, huse, List.mem_singleton] at hs
      subst hs
      simp only [revives, reach, huse]
      exact ⟨itemRevive_linked, fun q _ => List.Subset.refl _⟩
    · have hrevives : (item i).revives = false := by simpa [revives] using huse
      rw [sweeps] at hs
      split at hs
      next =>
        obtain rfl := List.mem_singleton.1 hs
        exact living_sweep_within itemHealHp_linked hrevives
      next =>
        obtain rfl := List.mem_singleton.1 hs
        exact living_sweep_within itemHealMp_linked hrevives
      next hrevive => exact absurd hrevive huse
      next =>
        obtain ⟨x, -, rfl⟩ := Option.map_eq_some_iff.1 (Option.mem_toList.1 hs)
        exact living_sweep_within itemBuff_linked hrevives
      next =>
        obtain rfl := List.mem_singleton.1 hs
        exact living_sweep_within itemDamage_linked hrevives
      next =>
        obtain rfl := List.mem_singleton.1 hs
        exact living_sweep_within itemCure_linked hrevives
      next => cases hs
      next => cases hs

theorem start_cases (h : t.start roster actor = .ok p) :
    p = { roster } ∨ t.revives = false ∧
      ∃ hp mp, p = { roster := roster.insert actor.id { actor with hp, mp } } := by
  cases t with
  | skill r s =>
    obtain ⟨paid, hpay, h⟩ := Fallible.bind_eq_ok.1 h
    obtain ⟨hp, mp, rfl⟩ := pay_eq_ok (Fallible.mapError_eq_ok.1 hpay)
    cases h
    exact .inr ⟨rfl, hp, mp, rfl⟩
  | item i =>
    cases h
    exact .inl rfl

theorem start_kept {α : Type} {look : Fighter → α} {id : String}
    (hlook : ∀ hp mp, look { actor with hp, mp } = look actor)
    (hactor : roster.get? actor.id = some actor) (h : t.start roster actor = .ok p) :
    (p.roster.get? id).map look = (roster.get? id).map look := by
  rcases start_cases h with rfl | ⟨-, hp, mp, rfl⟩
  · rfl
  · rw [Table.get?_insert]
    split
    next heq => rw [heq, hactor, Option.map_some, Option.map_some, hlook]
    next => rfl

theorem start_frame {id : String} (hne : id ≠ actor.id) (h : t.start roster actor = .ok p) :
    p.roster.get? id = roster.get? id := by
  rcases start_cases h with rfl | ⟨-, hp, mp, rfl⟩
  · rfl
  · rw [Table.get?_insert, if_neg hne]

theorem start_keyed (hr : roster.Keyed) (h : t.start roster actor = .ok p) : p.roster.Keyed := by
  rcases start_cases h with rfl | ⟨-, hp, mp, rfl⟩
  · exact hr
  · exact hr.insert { actor with hp, mp }

theorem start_of_revives (hrevives : t.revives = true) (h : t.start roster actor = .ok p) :
    p = { roster } := by
  rcases start_cases h with rfl | ⟨hnot, -⟩
  · rfl
  · cases hnot.symm.trans hrevives

/-- Beside the actor only targets are met, and the fallen only by what brings them back. -/
theorem mem_reach {id : String} (hne : id ≠ actor.id)
    (h : id ∈ t.reach roster actor.id targets) :
    id ∈ targets ∧ (t.revives = true ∨ roster.isAlive id = true) := by
  cases t with
  | skill r s =>
    obtain ⟨htarget, halive⟩ := List.mem_filter.1 ((List.mem_cons.1 h).resolve_left hne)
    exact ⟨htarget, .inr halive⟩
  | item i =>
    rw [reach] at h
    split at h
    next huse => exact ⟨h, .inl (by simpa [revives] using huse)⟩
    next =>
      obtain ⟨htarget, halive⟩ := List.mem_filter.1 h
      exact ⟨htarget, .inr halive⟩

theorem start_links {ps : List Progress} (hr : roster.Keyed) (h : t.start roster actor = .ok p)
    (hwatch : (watchAll (t.sweeps actor.id targets) p).run.run dice = (.ok ps, dice')) :
    Links t.revives (t.reach p.roster actor.id targets) p (ps.getLastD p) :=
  Links.of_isChain (watchAll_isChain (start_keyed hr h) sweeps_within dice ps dice' hwatch)

/-- A use fails exactly where no rule knows it or the actor cannot pay, and then nothing happens.
One that goes through changes nobody but the actor and the targets, of these the fallen only if it
revives and then no others, and of nobody what an action leaves alone. -/
theorem use_all_or_nothing (hr : roster.Keyed) (hactor : roster.get? actor.id = some actor)
    (hrun : (t.use roster actor targets).run.run dice = (.ok (report, roster'), dice')) :
    (report.success = false ↔ t.Fails actor) ∧
      (report.success = false →
        roster' = roster ∧ dice' = dice ∧ report.effects = [] ∧ report.killed = []) ∧
      (report.success = true → ∀ id,
        (id ≠ actor.id ∧ id ∉ targets ∨
            id ≠ actor.id ∧ roster.isAlive id = false ∧ t.revives = false ∨
            roster.isAlive id = true ∧ t.revives = true →
          roster'.get? id = roster.get? id)) ∧
      ∀ id, (roster'.get? id).map Fighter.profile = (roster.get? id).map Fighter.profile := by
  rcases use_cases hrun with
    ⟨hfails, hsuccess, heffects, hkilled, rfl, rfl⟩ | ⟨hgoes, p, ps, hstart, hwatch, rfl, rfl⟩
  · refine ⟨iff_of_true hsuccess hfails, fun _ => ⟨rfl, rfl, heffects, hkilled⟩, ?_, fun _ => rfl⟩
    exact fun _ _ _ => rfl
  · have hlinks := start_links hr hstart hwatch
    refine ⟨iff_of_false (by simp [Progress.report]) hgoes, ?_, ?_, ?_⟩
    · intro hfailed
      cases hfailed
    · rintro - id (⟨hne, htarget⟩ | ⟨hne, hfallen, hrevives⟩ | ⟨halive, hrevives⟩)
      · rw [hlinks.frame fun hmem => htarget (mem_reach hne hmem).1, start_frame hne hstart]
      · have hsame := start_frame hne hstart
        have hstays : p.roster.isAlive id = false := by rw [Roster.isAlive, hsame]; exact hfallen
        rw [hlinks.frame, hsame]
        intro hmem
        rcases (mem_reach hne hmem).2 with hrevives' | halive
        · cases hrevives.symm.trans hrevives'
        · cases hstays.symm.trans halive
      · obtain rfl := start_of_revives hrevives hstart
        rw [hrevives] at hlinks
        exact hlinks.spares halive
    · intro id
      rw [hlinks.profile, start_kept (fun _ _ => rfl) hactor hstart]

def mage : Fighter := Damage.sample "mage" {}

def imp : Fighter := Damage.sample "imp" {}

def ghost : Fighter := { Damage.sample "ghost" {} with hp := 0, isAlive := false }

def melee : Roster := Table.ofList [("mage", mage), ("imp", imp), ("ghost", ghost)]

theorem melee_keyed : melee.Keyed := by
  have hempty : Roster.Keyed (∅ : Table Fighter) := by
    intro id f hf
    cases hf
  exact ((hempty.insert mage).insert imp).insert ghost

def flame : Tool := .skill ⟨.standard, .real 0.5⟩ {
  id := "flame", name := "Flame", kind := .special, mpCost := 10, hpCost := 0, power := some 30
  value := none, target := "enemy", description := "", buff := none
  debuff := some ⟨"Defense", 5, some 2, .flat⟩ }

theorem use_all_or_nothing_flame : ∃ report r dice,
    (flame.use melee mage ["imp", "ghost", "imp"]).run.run {} = (.ok (report, r), dice) ∧
      report.success = true ∧ r.get? "ghost" = melee.get? "ghost" ∧
      (r.get? "imp").map Fighter.profile = (melee.get? "imp").map Fighter.profile := by
  have hok : ((flame.use melee mage ["imp", "ghost", "imp"]).run.run {}).1.toOption.map
      (fun p => p.1.success) = some true := by decide +kernel
  obtain ⟨⟨report, r⟩, dice, hrun, hsuccess⟩ := exists_run_eq_ok hok
  obtain ⟨-, -, hframe, hprofile⟩ := use_all_or_nothing melee_keyed rfl hrun
  refine ⟨report, r, dice, hrun, hsuccess, hframe hsuccess "ghost" ?_, hprofile "imp"⟩
  exact .inr (.inl ⟨by decide, by decide +kernel, rfl⟩)

end Tool

end Action

end Skirmish

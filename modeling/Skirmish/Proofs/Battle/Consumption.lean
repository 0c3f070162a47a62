import Skirmish.Proofs.Battle.Scope
import Skirmish.Proofs.Draws

namespace Skirmish.Action

open Chance

def drawsEach (s : Skill) : Nat :=
  match s.kind with
  | .physical | .magic => 3
  | .healing => 1
  | .special => if hasPower s then 3 else 0
  | .buff | .debuff | .defense | .other _ => 0

/-- Nobody comes or goes and, where nobody is hurt, nobody falls or rises. -/
structure Remains (unhurt : Bool) (p q : Progress) : Prop where
  keyed : p.roster.Keyed → q.roster.Keyed
  present : ∀ id, (q.roster.get? id).isSome = (p.roster.get? id).isSome
  alive : unhurt = true → ∀ id, q.roster.isAlive id = p.roster.isAlive id

section

variable {unhurt revives : Bool} {n : Nat} {p q q' : Progress} {f : Fighter} {id : String}
  {ids targets : List String} {step : Step} {rules : Rules} {s : Skill}

namespace Remains

theorem refl (p : Progress) : Remains unhurt p p := ⟨id, fun _ => rfl, fun _ _ => rfl⟩

theorem trans (h : Remains unhurt p q) (h' : Remains unhurt q q') : Remains unhurt p q' where
  keyed := h'.keyed ∘ h.keyed
  present id := (h'.present id).trans (h.present id)
  alive hunhurt id := (h'.alive hunhurt id).trans (h.alive hunhurt id)

theorem of_link (h : Link revives ids p q) : Remains false p q where
  keyed := h.keyed
  present id := by
    have hprofile : ((q.roster.get? id).map Fighter.profile).isSome =
        ((p.roster.get? id).map Fighter.profile).isSome := by rw [h.profile]
    rwa [Option.isSome_map, Option.isSome_map] at hprofile
  alive := by rintro ⟨⟩

theorem of_record {g : Fighter} {e : Effect} (hf : p.roster.get? f.id = some f) (hid : g.id = f.id)
    (halive : g.isAlive = f.isAlive) : Remains true p (p.record g e) where
  keyed hp := hp.insert g
  present id := by
    rw [Progress.record, Table.get?_insert, hid]
    split
    next heq => rw [heq, hf]; rfl
    next => rfl
  alive _ id := by
    rw [Progress.record, Roster.isAlive, Roster.isAlive, Table.get?_insert, hid]
    split
    next heq => rw [heq, hf, Option.map_some, Option.map_some, halive]
    next => rfl

end Remains

def Takes (n : Nat) (unhurt : Bool) (step : Step) : Prop :=
  ∀ p f, p.roster.get? f.id = some f → Spends n (step p f) (Remains unhurt p)

theorem takes_of_linked (hlinked : Linked revives step)
    (h : ∀ p f, Spends n (step p f) fun _ => True) : Takes n false step :=
  fun p f hf => ((h p f).and (hlinked p f hf)).mono fun _ h => .of_link h.2

theorem calculate_spends {formulas : Damage.Formulas} {attacker defender : Fighter}
    {kind : Damage.Kind} {power : Quantity} :
    Spends 3 (Damage.calculate formulas attacker defender kind power) fun _ => True := by
  intro dice hit dice' hrun
  rw [Damage.calculate_run] at hrun
  obtain ⟨-, rfl⟩ := Prod.mk.inj hrun
  simp only [Dice.afterDraw_eq, Dice.after_after, true_and]

theorem healing_spends {healer : Fighter} {base : Quantity} :
    Spends 1 (Damage.healing healer base) fun _ => True := by
  refine spends_unit.bind (n := 0) fun x _ => Still.spends ?_
  refine (still_lift _).bind fun share => (still_lift _).bind fun sum => ?_
  exact (still_lift _).bind fun amount => still_lift _

theorem attackStep_takes : Takes 3 false (attackStep rules id s) := by
  refine takes_of_linked attackStep_linked fun p f =>
    (calculate_spends.adapt _).bind (n := 0) fun hit _ => ?_
  refine Still.spends ((still_lift _).bind fun damage => ?_)
  exact (still_lift _).bind fun after => still_pure _

theorem healStep_takes : Takes 1 false (healStep id s) := by
  refine takes_of_linked healStep_linked fun p f =>
    (healing_spends.adapt _).bind (n := 0) fun amount _ => ?_
  exact Still.spends ((still_lift _).bind fun r => still_pure _)

theorem modifierStep_takes {definition : Modifier.Definition} {source : String}
    {effect : Fighter → Effect} : Takes 0 true (modifierStep definition source effect) :=
  fun _ _ hf => spends_pure (.of_record hf rfl rfl)

theorem forEach_spends (htakes : Takes n unhurt step) (hp : p.roster.Keyed)
    (hids : ∀ id ∈ ids, (p.roster.get? id).isSome) :
    Spends (n * ids.length) (forEach step p ids) (Remains unhurt p) := by
  induction ids generalizing p with
  | nil => exact spends_pure (.refl p)
  | cons id ids ih =>
      obtain ⟨f, hf⟩ := Option.isSome_iff_exists.1 (hids id (.head _))
      have hself : p.roster.get? f.id = some f := by rwa [hp id f hf]
      have hrest : ∀ q, Remains unhurt p q →
          Spends (n * ids.length) (forEach step q ids) (Remains unhurt p) := by
        intro q hq
        refine (ih (hq.keyed hp) fun id hid => ?_).mono fun _ h => hq.trans h
        rw [hq.present]
        exact hids id (.tail _ hid)
      rw [forEach, hf, List.length_cons, Nat.mul_succ, Nat.add_comm]
      exact (htakes p f hself).bind hrest

theorem isSome_of_isAlive {r : Roster} (h : r.isAlive id = true) : (r.get? id).isSome = true := by
  rw [Roster.isAlive] at h
  cases hid : r.get? id with
  | none =>
    rw [hid] at h
    cases h
  | some f => rfl

/-- A sweep over the living draws for each target that lives where it begins. -/
theorem living_spends (htakes : Takes n unhurt step) (hp : p.roster.Keyed) :
    Spends (n * targets.countP p.roster.isAlive) (sweepAll [.living targets step] p)
      (Remains unhurt p) := by
  rw [sweepAll_singleton, List.countP_eq_length_filter]
  exact forEach_spends htakes hp fun id hid => isSome_of_isAlive (List.mem_filter.1 hid).2

theorem living_spends_nothing (htakes : Takes 0 unhurt step) (hp : p.roster.Keyed) :
    Spends 0 (sweepAll [.living targets step] p) (Remains unhurt p) := by
  rw [← Nat.zero_mul (targets.countP p.roster.isAlive)]
  exact living_spends htakes hp

namespace Tool

theorem buffs_spends (hp : p.roster.Keyed) :
    Spends 0 (sweepAll (buffs s targets) p) (Remains true p) := by
  rw [buffs]
  cases s.buff with
  | none => exact spends_pure (.refl p)
  | some c => exact living_spends_nothing modifierStep_takes hp

theorem debuffs_spends (hp : p.roster.Keyed) :
    Spends 0 (sweepAll (debuffs s targets) p) (Remains true p) := by
  rw [debuffs]
  cases s.debuff with
  | none => exact spends_pure (.refl p)
  | some c => exact living_spends_nothing modifierStep_takes hp

theorem defense_spends : Spends 0 (sweepAll [defense s id] p) fun _ => True := by
  refine Still.spends ?_
  rw [sweepAll_singleton, defense, forEach]
  cases p.roster.get? id with
  | none => exact still_pure _
  | some f => exact (still_pure _).bind fun q => still_pure _

theorem special_spends (hp : p.roster.Keyed) :
    Spends ((if hasPower s then 3 else 0) * targets.countP p.roster.isAlive)
      (sweepAll (buffs s targets ++ debuffs s targets ++
        if hasPower s then [attack rules s id targets] else []) p) fun _ => True := by
  rw [sweepAll_append, sweepAll_append, bind_assoc, ← Nat.zero_add (_ * _)]
  refine (buffs_spends hp).bind fun q hq => ?_
  rw [← Nat.zero_add (_ * _)]
  refine (debuffs_spends (hq.keyed hp)).bind fun q' hq' => ?_
  have hall := hq.trans hq'
  split
  next =>
    have halive : q'.roster.isAlive = p.roster.isAlive := funext (hall.alive rfl)
    rw [← halive]
    exact (living_spends attackStep_takes (hall.keyed hp)).mono fun _ _ => trivial
  next =>
    rw [Nat.zero_mul]
    exact spends_pure trivial

theorem skill_spends (hp : p.roster.Keyed) :
    Spends (drawsEach s * targets.countP p.roster.isAlive)
      (sweepAll ((skill rules s).sweeps id targets) p) fun _ => True := by
  have hattack : Spends (3 * targets.countP p.roster.isAlive)
      (sweepAll [attack rules s id targets] p) fun _ => True :=
    (living_spends attackStep_takes hp).mono fun _ _ => trivial
  cases hkind : s.kind with
  | physical => simpa only [drawsEach, sweeps, hkind] using hattack
  | magic => simpa only [drawsEach, sweeps, hkind] using hattack
  | healing =>
    simp only [drawsEach, sweeps, hkind]
    exact (living_spends healStep_takes hp).mono fun _ _ => trivial
  | buff =>
    simp only [drawsEach, sweeps, hkind, Nat.zero_mul]
    exact (buffs_spends hp).mono fun _ _ => trivial
  | debuff =>
    simp only [drawsEach, sweeps, hkind, Nat.zero_mul]
    exact (debuffs_spends hp).mono fun _ _ => trivial
  | defense =>
    simp only [drawsEach, sweeps, hkind, Nat.zero_mul]
    exact defense_spends
  | special =>
    simp only [drawsEach, sweeps, hkind]
    exact special_spends hp
  | other name =>
    simp only [drawsEach, sweeps, hkind, Nat.zero_mul]
    exact spends_pure trivial

end Tool

/-- The steps of items leave the dice alone, also where they fail. -/
theorem forEach_still (h : ∀ p f, Still (step p f)) : Still (forEach step p ids) := by
  induction ids generalizing p with
  | nil => exact still_pure p
  | cons id ids ih =>
      rw [forEach]
      cases p.roster.get? id with
      | none => exact ih
      | some f => exact (h p f).bind fun q => ih

theorem itemRevive_still {item : Item} (p : Progress) (f : Fighter) :
    Still (itemRevive item p f) := by
  rw [itemRevive]
  split
  next => exact still_pure p
  next => exact (still_lift _).bind fun hp => still_pure _

theorem applyItem_still (item : Item) : Still (applyItem item targets p) := by
  cases huse : item.use with
  | healHp =>
    simp only [applyItem, huse]
    exact forEach_still fun p f => (still_lift _).bind fun r => still_pure _
  | healMp =>
    simp only [applyItem, huse]
    exact forEach_still fun p f => (still_lift _).bind fun r => still_pure _
  | revive =>
    simp only [applyItem, huse]
    exact forEach_still itemRevive_still
  | buff =>
    simp only [applyItem, huse]
    cases itemBuff? item with
    | none => exact still_pure p
    | some x => exact forEach_still fun p f => still_pure _
  | damage =>
    simp only [applyItem, huse]
    exact forEach_still fun p f => (still_lift _).bind fun after => still_pure _
  | cure =>
    simp only [applyItem, huse]
    exact forEach_still fun p f => still_pure _
  | nothing =>
    simp only [applyItem, huse]
    exact still_pure p
  | other name =>
    simp only [applyItem, huse]
    exact still_pure p

theorem useItem_still (roster : Roster) (actor : Fighter) (item : Item) (targets : List String) :
    Still (useItem roster actor item targets) := by
  rw [useItem]
  split
  next => exact still_lift _
  next => exact (applyItem_still item).bind fun p => still_pure _

end

structure GoesThrough (rules : Rules) (s : Skill) (roster : Roster) (actor : Fighter)
    (targets : List String) (dice dice' : Dice) : Prop where
  keyed : roster.Keyed
  stands : roster.get? actor.id = some actor
  run : ∃ report roster', (useSkill rules roster actor s targets).run.run dice =
    (.ok (report, roster'), dice') ∧ report.success = true

section

variable {rules : Rules} {s : Skill} {roster : Roster} {actor : Fighter} {targets : List String}
  {dice dice' : Dice}

theorem GoesThrough.draws (h : GoesThrough rules s roster actor targets dice dice') :
    dice' = dice.after (drawsEach s * targets.countP roster.isAlive) := by
  obtain ⟨report, roster', hrun, hsuccess⟩ := h.run
  rcases Tool.use_cases (t := .skill rules s) hrun with
    ⟨-, hfailed, -⟩ | ⟨-, p, ps, hstart, hwatch, -, -⟩
  · cases hfailed.symm.trans hsuccess
  · have halive : p.roster.isAlive = roster.isAlive := by
      funext id
      have hkept : (p.roster.get? id).map Fighter.isAlive = (roster.get? id).map Fighter.isAlive :=
        Tool.start_kept (fun _ _ => rfl) h.stands hstart
      rw [Roster.isAlive, Roster.isAlive, hkept]
    have hsweeps : (sweepAll ((Tool.skill rules s).sweeps actor.id targets) p).run.run dice =
        (.ok (ps.getLastD p), dice') := by
      rw [sweepAll_eq_watchAll]
      exact run_map_of_ok hwatch
    rw [← halive]
    exact (Tool.skill_spends (Tool.start_keyed h.keyed hstart) dice _ dice' hsweeps).2

/-- What an action draws depends on its shape alone: on the kind of the skill, and on which of its
targets live. Two uses of a skill on as many living targets draw alike, and items draw nothing. -/
theorem draws_by_shape (h : GoesThrough rules s roster actor targets dice dice') :
    dice' = dice.after (drawsEach s * targets.countP roster.isAlive) ∧
      (∀ rules₂ roster₂ actor₂ targets₂ dice₂ dice₂',
        GoesThrough rules₂ s roster₂ actor₂ targets₂ dice₂ dice₂' →
        targets₂.map roster₂.isAlive = targets.map roster.isAlive →
          (dice₂.drawn = dice.drawn → dice₂'.drawn = dice'.drawn) ∧
            (dice₂ = dice → dice₂' = dice')) ∧
      ∀ (r : Roster) (user : Fighter) (item : Item) (aims : List String) (d : Dice),
        ((useItem r user item aims).run.run d).2 = d := by
  refine ⟨h.draws, ?_, useItem_still⟩
  intro rules₂ roster₂ actor₂ targets₂ dice₂ dice₂' h₂ hpattern
  have hcount : targets₂.countP roster₂.isAlive = targets.countP roster.isAlive := by
    have hcounts := congrArg (List.countP id) hpattern
    rwa [List.countP_map, List.countP_map] at hcounts
  rw [h.draws, h₂.draws, hcount]
  refine ⟨fun hdrawn => ?_, fun hsame => by rw [hsame]⟩
  rw [Dice.drawn_after, Dice.drawn_after, hdrawn]

end

namespace Tool

def burn : Skill := {
  id := "burn", name := "Burn", kind := .special, mpCost := 10, hpCost := 0, power := some 30
  value := none, target := "enemy", description := "", buff := none
  debuff := some ⟨"Defense", 5, some 2, .flat⟩ }

def illegible : Rules := ⟨⟨"(", "(", "("⟩, .real 0.5⟩

def frail : Roster := melee.insert "imp" { imp with hp := 1 }

theorem goesThrough_burn (rules : Rules) {roster : Roster} (hkeyed : roster.Keyed)
    (hmage : roster.get? mage.id = some mage)
    (h : ((useSkill rules roster mage burn ["imp", "ghost", "imp"]).run.run {}).1.toOption.map
      (fun p => p.1.success) = some true) :
    ∃ dice, GoesThrough rules burn roster mage ["imp", "ghost", "imp"] {} dice := by
  obtain ⟨⟨report, r⟩, dice, hrun, hsuccess⟩ := exists_run_eq_ok h
  exact ⟨dice, hkeyed, hmage, report, r, hrun, hsuccess⟩

/-- Six draws with the standard formulas, and six with none that works and an imp that falls. -/
theorem draws_by_shape_burn : ∃ dice dice₂,
    GoesThrough ⟨.standard, .real 0.5⟩ burn melee mage ["imp", "ghost", "imp"] {} dice ∧
      GoesThrough illegible burn frail mage ["imp", "ghost", "imp"] {} dice₂ ∧
      dice.drawn = 6 ∧ dice₂ = dice := by
  have hkeyed : frail.Keyed := melee_keyed.insert { imp with hp := 1 }
  obtain ⟨dice, h⟩ := goesThrough_burn ⟨.standard, .real 0.5⟩ melee_keyed rfl
    (by decide +kernel)
  obtain ⟨dice₂, h₂⟩ := goesThrough_burn illegible hkeyed rfl (by decide +kernel)
  obtain ⟨hdraws, hsame, -⟩ := draws_by_shape h
  have hcount : drawsEach burn * ["imp", "ghost", "imp"].countP melee.isAlive = 6 := by
    decide +kernel
  rw [hcount] at hdraws
  refine ⟨dice, dice₂, h, h₂, by rw [hdraws]; rfl, ?_⟩
  exact (hsame illegible frail mage _ {} dice₂ h₂ (by decide +kernel)).2 rfl

end Tool

end Skirmish.Action

import Skirmish.Proofs.Battle.Treatment

namespace Skirmish.Action

open Chance

structure Sweep where
  step : Step
  aims : Roster → List String

def Sweep.living (targets : List String) (step : Step) : Sweep :=
  ⟨step, fun r => livingIds r targets⟩

def sweepAll : List Sweep → Progress → Attempt Progress
  | [], p => return p
  | s :: ss, p => do sweepAll ss (← forEach s.step p (s.aims p.roster))

/-- The progress after each fighter that `forEach` meets. -/
def watchEach (step : Step) (p : Progress) : List String → Attempt (List Progress)
  | [] => return []
  | id :: ids => do
    match p.roster.get? id with
    | none => watchEach step p ids
    | some f =>
      let q ← step p f
      return q :: (← watchEach step q ids)

def watchAll : List Sweep → Progress → Attempt (List Progress)
  | [], _ => return []
  | s :: ss, p => do
    let ps ← watchEach s.step p (s.aims p.roster)
    return ps ++ (← watchAll ss (ps.getLastD p))

section

variable {step : Step} {p : Progress} {ids : List String} {s : Sweep} {ss : List Sweep}

theorem forEach_eq_watchEach :
    forEach step p ids = (fun ps => ps.getLastD p) <$> watchEach step p ids := by
  induction ids generalizing p with
  | nil => rw [forEach, watchEach, map_pure, List.getLastD_nil]
  | cons id ids ih =>
    rw [forEach, watchEach]
    cases p.roster.get? id with
    | none => exact ih
    | some f =>
      show (step p f >>= fun q => forEach step q ids) =
        (fun ps => ps.getLastD p) <$> (step p f >>= fun q =>
          watchEach step q ids >>= fun ps => pure (q :: ps))
      simp only [ih, map_eq_pure_bind, bind_assoc, pure_bind, List.getLastD_cons]

theorem getLastD_append (ps qs : List Progress) :
    (ps ++ qs).getLastD p = qs.getLastD (ps.getLastD p) := by
  induction ps generalizing p with
  | nil => rfl
  | cons q ps ih => rw [List.cons_append, List.getLastD_cons, List.getLastD_cons, ih]

theorem sweepAll_eq_watchAll : sweepAll ss p = (fun ps => ps.getLastD p) <$> watchAll ss p := by
  induction ss generalizing p with
  | nil => rw [sweepAll, watchAll, map_pure, List.getLastD_nil]
  | cons s ss ih =>
    simp only [sweepAll, watchAll, forEach_eq_watchEach, ih, map_bind, map_pure, bind_map_left,
      getLastD_append]
    rfl

theorem sweepAll_append (ts : List Sweep) :
    sweepAll (ss ++ ts) p = sweepAll ss p >>= sweepAll ts := by
  induction ss generalizing p with
  | nil => rw [List.nil_append, sweepAll, pure_bind]
  | cons s ss ih =>
    simp only [List.cons_append, sweepAll, ih, bind_assoc]

theorem sweepAll_singleton : sweepAll [s] p = forEach s.step p (s.aims p.roster) := by
  simp only [sweepAll, bind_pure]

theorem watchAll_singleton : watchAll [s] p = watchEach s.step p (s.aims p.roster) := by
  simp only [watchAll, pure_bind, List.append_nil, bind_pure]

theorem forLiving_eq {targets : List String} :
    forLiving targets step p = sweepAll [.living targets step] p := by
  rw [sweepAll_singleton]
  rfl

end

inductive Tool where
  | skill (rules : Rules) (skill : Skill)
  | item (item : Item)

namespace Tool

def name : Tool → String
  | skill _ s => s.name
  | item i => i.name

def use (roster : Roster) (actor : Fighter) (targets : List String) :
    Tool → Attempt (Report × Roster)
  | skill r s => useSkill r roster actor s targets
  | item i => useItem roster actor i targets

def refusal? (actor : Fighter) : Tool → Option Refusal
  | skill _ s => Action.refusal? actor s
  | item i =>
    match i.use with
    | .other _ => some (.noEffect i.name)
    | _ => none

def start (roster : Roster) (actor : Fighter) : Tool → Roster.Result Progress
  | skill _ s => do
    let paid ← (pay actor s).mapError roster.halted
    return { roster := roster.insert actor.id paid }
  | item _ => .ok { roster }

def buffs (s : Skill) (targets : List String) : List Sweep :=
  (s.buff.map fun c => .living targets (buffStep s c)).toList

def debuffs (s : Skill) (targets : List String) : List Sweep :=
  (s.debuff.map fun c => .living targets (debuffStep s c)).toList

def attack (r : Rules) (s : Skill) (actorId : String) (targets : List String) : Sweep :=
  .living targets (attackStep r actorId s)

def defense (s : Skill) (actorId : String) : Sweep :=
  ⟨fun p f => return defend s p f, fun _ => [actorId]⟩

def sweeps (actorId : String) (targets : List String) : Tool → List Sweep
  | skill r s =>
    match s.kind with
    | .physical | .magic => [attack r s actorId targets]
    | .healing => [.living targets (healStep actorId s)]
    | .buff => buffs s targets
    | .debuff => debuffs s targets
    | .defense => [defense s actorId]
    | .special =>
      buffs s targets ++ debuffs s targets ++
        if hasPower s then [attack r s actorId targets] else []
    | .other _ => []
  | item i =>
    match i.use with
    | .healHp => [.living targets (itemHealHp i)]
    | .healMp => [.living targets (itemHealMp i)]
    | .revive => [⟨itemRevive i, fun _ => targets⟩]
    | .buff => ((itemBuff? i).map fun x => .living targets (itemBuff i x.1 x.2)).toList
    | .damage => [.living targets (itemDamage i)]
    | .cure => [.living targets itemCure]
    | .nothing | .other _ => []

/-- The moments of a use: the progress before anybody is met, and after each fighter met. One that
is refused has none. -/
def moments (roster : Roster) (actor : Fighter) (targets : List String) (t : Tool) :
    Attempt (List Progress) := do
  match t.refusal? actor with
  | some _ => return []
  | none =>
    let p ← t.start roster actor
    return p :: (← watchAll (t.sweeps actor.id targets) p)

variable {p : Progress} {r : Rules} {s : Skill} {i : Item} {actor paid : Fighter}
  {targets : List String} {roster roster' : Roster} {t : Tool}

theorem buffAll_eq : buffAll s targets p = sweepAll (buffs s targets) p := by
  rw [buffAll, buffs]
  cases s.buff with
  | none => rfl
  | some c => exact forLiving_eq

theorem debuffAll_eq : debuffAll s targets p = sweepAll (debuffs s targets) p := by
  rw [debuffAll, debuffs]
  cases s.debuff with
  | none => rfl
  | some c => exact forLiving_eq

theorem attackAll_eq {id : String} :
    attackAll r id s targets p = sweepAll [attack r s id targets] p :=
  forLiving_eq

theorem perform_eq (hpaid : p.roster.get? paid.id = some paid) :
    perform r paid s targets p = sweepAll ((skill r s).sweeps paid.id targets) p := by
  cases hkind : s.kind with
  | physical =>
    simp only [perform, sweeps, hkind]
    exact attackAll_eq
  | magic =>
    simp only [perform, sweeps, hkind]
    exact attackAll_eq
  | healing =>
    simp only [perform, sweeps, hkind]
    exact forLiving_eq
  | buff =>
    simp only [perform, sweeps, hkind]
    exact buffAll_eq
  | debuff =>
    simp only [perform, sweeps, hkind]
    exact debuffAll_eq
  | defense =>
    simp only [perform, sweeps, hkind]
    rw [sweepAll_singleton, defense, forEach, hpaid]
    rfl
  | special =>
    simp only [perform, sweeps, hkind]
    rw [sweepAll_append, sweepAll_append, bind_assoc, buffAll_eq]
    simp only [debuffAll_eq, attackAll_eq]
    split
    · rfl
    · rfl
  | other name =>
    simp only [perform, sweeps, hkind]
    rfl

theorem applyItem_eq (id : String) :
    applyItem i targets p = sweepAll ((item i).sweeps id targets) p := by
  cases huse : i.use with
  | healHp =>
    simp only [applyItem, sweeps, huse]
    exact forLiving_eq
  | healMp =>
    simp only [applyItem, sweeps, huse]
    exact forLiving_eq
  | revive =>
    simp only [applyItem, sweeps, huse]
    rw [sweepAll_singleton]
  | buff =>
    simp only [applyItem, sweeps, huse]
    cases itemBuff? i with
    | none => rfl
    | some x => exact forLiving_eq
  | damage =>
    simp only [applyItem, sweeps, huse]
    exact forLiving_eq
  | cure =>
    simp only [applyItem, sweeps, huse]
    exact forLiving_eq
  | nothing =>
    simp only [applyItem, sweeps, huse]
    rfl
  | other name =>
    simp only [applyItem, sweeps, huse]
    rfl

theorem use_eq : t.use roster actor targets =
    match t.refusal? actor with
    | some why => liftM (refuse roster why)
    | none => do
      let p ← t.start roster actor
      let q ← sweepAll (t.sweeps actor.id targets) p
      return (q.report actor t.name, q.roster) := by
  cases t with
  | skill r s =>
    rw [use, useSkill, refusal?]
    cases Action.refusal? actor s with
    | some why => rfl
    | none =>
      rw [start]
      cases hpay : pay actor s with
      | error e => rfl
      | ok paid =>
        obtain ⟨hp, mp, rfl⟩ := pay_eq_ok hpay
        let p : Progress := { roster := roster.insert actor.id { actor with hp, mp } }
        have hpaid : p.roster.get? actor.id = some { actor with hp, mp } := by
          rw [Table.get?_insert, if_pos rfl]
        show (do
          let q ← perform r { actor with hp, mp } s targets p
          return (q.report actor s.name, q.roster)) = _
        rw [perform_eq hpaid]
        rfl
  | item i =>
    rw [use, useItem, refusal?]
    cases huse : i.use with
    | other name => rfl
    | _ =>
      dsimp only
      rw [applyItem_eq actor.id]
      rfl

end Tool

end Skirmish.Action

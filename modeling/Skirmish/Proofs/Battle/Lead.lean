import Skirmish.Proofs.Battle.Footprint
import Skirmish.Proofs.Battle.StatCoherence

namespace Skirmish.Battle

variable {p : String} {b b' : Battle} {f g : Fighter}

def Led (p : String) (b : Battle) : Prop :=
  b.fighters.Every fun f => f.isPlayer = true → f.id = p

abbrev KeepsLead (p : String) (x : Result Battle) : Prop := Fallible.Ends (Led p) (Led p) x

namespace Led

theorem fighter? {id : String} (hb : Led p b) (hf : b.fighter? id = some f) :
    f.isPlayer = true → f.id = p :=
  (hb id f hf).2

theorem setFighter (hb : Led p b) (hf : f.isPlayer = true → f.id = p) : Led p (b.setFighter f) :=
  Roster.Every.insert hb hf

theorem replace {id : String} (hb : Led p b) (hf : b.fighter? id = some f) (hid : g.id = f.id)
    (hside : g.isPlayer = f.isPlayer) : Led p (b.setFighter g) := by
  refine hb.setFighter ?_
  rw [hid, hside]
  exact hb.fighter? hf

theorem enroll {e : Enemy} {id : String} (hb : Led p b) : KeepsLead p (b.enroll e id) := by
  refine (Fallible.ends_leaving hb).bind fun f hf => ?_
  have henemy := (recruitEnemy_side hf).2
  exact hb.setFighter (by simp [henemy])

theorem enrollAll {seen : List String} {es : List Enemy} (hb : Led p b) :
    KeepsLead p (b.enrollAll seen es) := by
  induction es generalizing b seen with
  | nil => exact hb
  | cons e es ih => exact hb.enroll.bind fun d hd => ih hd

theorem refreshAll {ids : List String} (hb : Led p b) : KeepsLead p (b.refreshAll ids) := by
  induction ids generalizing b with
  | nil => exact hb
  | cons id ids ih =>
      refine Fallible.Ends.bind ?_ fun d hd => ih hd
      rw [refreshFighter]
      split
      next => exact hb
      next f hf =>
        refine (Fallible.ends_leaving hb).bind fun g hg => ?_
        obtain ⟨hid, hside⟩ := refreshWith_side hg
        exact hb.replace hf hid hside

theorem applyReport {report : Action.Report} (hb : Led p b) :
    KeepsLead p (b.applyReport report) := by
  simp only [Battle.applyReport]
  split
  · exact hb
  · refine ((Coherent.sayEffects_ends _ _).mono ?_ ?_).bind fun d hd => refreshAll hd
    all_goals
      intro d hsame
      have hd : d.fighters = b.fighters := hsame.fighters
      rw [Led]
      exact hd ▸ hb

theorem basicAttackOn {attack : Quantity} {ids : List String} (hb : Led p b) :
    KeepsLead p (b.basicAttackOn attack ids) := by
  induction ids generalizing b with
  | nil => exact hb
  | cons id ids ih =>
      simp only [Battle.basicAttackOn]
      split
      next => exact ih hb
      next f hf =>
        refine (Fallible.ends_leaving hb).bind fun damage _ => ?_
        refine (Fallible.ends_leaving hb).bind fun after hafter => ?_
        obtain ⟨hp, isAlive, rfl⟩ :=
          Fighter.takeDamage_eq_ok (Fallible.mapError_eq_ok.1 hafter)
        have hset : Led p (b.setFighter { f with hp, isAlive }) :=
          hb.replace (Option.filter_eq_some_iff.1 hf).1 rfl rfl
        split
        all_goals
          refine ih ?_
          exact hset

theorem kept : Action.Kept fun _ f => f.isPlayer = true → f.id = p where
  mono h _ := h
  same _ _ _ h := h
  changed _ _ h _ _ := h

theorem rolled {r : Action.Attempt (Action.Report × Roster)}
    (hr : Chance.Ends (Action.Strayed fun _ f => f.isPlayer = true → f.id = p)
      (Action.Reported fun _ f => f.isPlayer = true → f.id = p) r) :
    KeepsLead p (b.rollOr r haltedAll >>= fun x =>
      Battle.applyReport { x.2 with fighters := x.1.2 } x.1.1) := by
  have hroll : Fallible.Ends (Led p) (fun x => Led p { x.2 with fighters := x.1.2 })
      (b.rollOr r haltedAll) := by
    refine rollOr_ends (fun h dice hrun => ?_) fun x dice hrun => ?_
    · obtain ⟨es, hleft⟩ := (hr b.dice).of_eq_error (congrArg Prod.fst hrun)
      exact hleft
    · exact (hr.yields _ _ _ hrun).every kept
  exact hroll.bind fun x hx => applyReport hx

theorem runOrder {o : Order} {id : String} (hb : Led p b) (hf : b.fighter? id = some f) :
    KeepsLead p (b.runOrder f o) := by
  simp only [Battle.runOrder]
  split
  · simp only [runSkill]
    split
    · exact basicAttackOn (b := b.say _) hb
    · exact rolled (Action.useSkill_reported kept hb (hb.fighter? hf))
  · simp only [runItem]
    split
    · exact hb
    · exact rolled (Action.useItem_reported kept hb)
  · exact hb.replace hf rfl rfl
  · exact hb
  · exact hb

section

variable {id : String} (hb : Led p b) (hf : b.fighter? id = some f)

include hb hf

theorem beginTurn : KeepsLead p (b.beginTurn f) := by
  have hturned : Led p (b.setFighter (turned f)) := hb.replace hf rfl rfl
  simp only [Battle.beginTurn]
  split
  all_goals
    refine Fallible.Ends.bind (Fallible.ends_leaving ?_) fun g hg => ?_
    · exact hturned
    · obtain ⟨hid, hside⟩ := refreshWith_side hg
      exact hb.replace hf hid hside

theorem scriptBuff {stat : String} {value : Quantity} {duration : Option Int} :
    KeepsLead p (b.scriptBuff stat value duration f) := by
  refine Fallible.Ends.bind (Fallible.ends_leaving ?_) fun g hg => ?_
  · exact hb.replace hf rfl rfl
  · obtain ⟨hid, hside⟩ := refreshWith_side hg
    exact hb.replace hf hid hside

theorem scriptHeal {amount : Quantity} : KeepsLead p (b.scriptHeal amount f) := by
  have hheal : Fallible.Ends (Led p) (fun x => ∃ hp, x.1 = { f with hp })
      ((f.restoreHp amount).mapError b.halted) := by
    refine Fallible.ends_mapError (f.restoreHp_ends amount) ?_
    rintro ⟨cause, _⟩ ⟨hp, mp, rfl⟩
    exact hb.replace hf rfl rfl
  refine hheal.bind fun x hx => ?_
  obtain ⟨hp, hx⟩ := hx
  have hset : Led p (b.setFighter x.1) := hb.replace hf (by rw [hx]) (by rw [hx])
  exact (Fallible.ends_leaving hset).bind fun _ _ => hset

theorem scriptDamage {amount : Quantity} : KeepsLead p (b.scriptDamage amount f) := by
  refine (Fallible.ends_leaving hb).bind fun after hafter => ?_
  obtain ⟨hp, isAlive, rfl⟩ := Fighter.takeDamage_eq_ok (Fallible.mapError_eq_ok.1 hafter)
  have hset : Led p (b.setFighter { f with hp, isAlive }) := hb.replace hf rfl rfl
  refine (Fallible.ends_leaving hset).bind fun shown _ => ?_
  show Led p (if Fighter.fell f { f with hp, isAlive } then _ else _)
  split
  · exact hset
  · exact hset

theorem scriptFlee : Led p (b.scriptFlee f) := by
  rw [Battle.scriptFlee]
  split
  · exact hb
  · exact hb.replace hf rfl rfl

theorem transform {e : Enemy} : KeepsLead p (b.transform f e) := by
  refine (Fallible.ends_leaving hb).bind fun ratio _ => ?_
  refine Fallible.Ends.bind (Fallible.ends_leaving ?_) fun g hg => ?_
  · exact hb.replace hf rfl rfl
  · obtain ⟨hid, hside⟩ := refreshWith_side hg
    have hset : ∀ hp, Led p (b.setFighter { g with hp }) := fun hp =>
      hb.replace (g := { g with hp }) hf hid hside
    exact (Fallible.ends_leaving (hset g.hp)).bind fun hp _ => hset (.whole hp)

end

theorem spawn {e : Enemy} (hb : Led p b) : KeepsLead p (b.spawn e) :=
  hb.enroll.bind fun _ hd => (Fallible.ends_leaving hd).bind fun _ _ => hd

theorem lasting : Lasting (Led p) where
  of_same hb h := by
    rw [Led, h.fighters]
    exact hb
  beginTurn hf h hb := (hb.beginTurn hf).of_eq_ok h
  runOrder hf h hb := (hb.runOrder hf).of_eq_ok h
  spawn h hb := hb.spawn.of_eq_ok h
  scriptBuff hf h hb := (hb.scriptBuff hf).of_eq_ok h
  scriptHeal hf h hb := (hb.scriptHeal hf).of_eq_ok h
  scriptDamage hf h hb := (hb.scriptDamage hf).of_eq_ok h
  scriptFlee hf hb := hb.scriptFlee hf
  transform hf h hb := (hb.transform hf).of_eq_ok h
  settle hf h hb := by
    obtain ⟨hid, hside⟩ := refreshWith_side h
    exact hb.replace hf hid hside

theorem assemble {player : Option Character} {enemies : Option (List Enemy)}
    (h : b.assemble player enemies = .ok b') : Led (player.getD b.game.player).id b' := by
  obtain ⟨f, hf, h⟩ := Fallible.bind_eq_ok.1 h
  obtain ⟨d, hd, h⟩ := Fallible.bind_eq_ok.1 h
  cases h
  have hled : Led (player.getD b.game.player).id d := by
    refine (enrollAll ?_).of_eq_ok hd
    have hrecruit := Fallible.leaving_eq_ok.1 hf
    exact Roster.Every.insert Roster.Every.empty fun _ => (recruitPlayer_side hrecruit).1
  exact hled

/-- While any player lives, the lead does. -/
theorem exists_living (hb : Led p b) (hplayers : b.players ≠ []) :
    ∃ f, b.fighter? p = some f ∧ f.isAlive = true ∧ f.isPlayer = true := by
  obtain ⟨f, hf⟩ := List.exists_mem_of_ne_nil _ hplayers
  obtain ⟨hside, halive⟩ := List.mem_filter.1 hf
  obtain ⟨hvalue, hplayer⟩ := List.mem_filter.1 hside
  obtain ⟨e, he, rfl⟩ := List.mem_map.1 hvalue
  have hfound : b.fighter? e.1 = some e.2 := Table.get?_of_mem he
  obtain ⟨hid, hlead⟩ := hb e.1 e.2 hfound
  exact ⟨e.2, by rw [← hlead hplayer, hid, hfound], halive, hplayer⟩

end Led

end Skirmish.Battle

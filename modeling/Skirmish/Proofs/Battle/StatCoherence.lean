import Skirmish.Proofs.Battle.Enrollment
import Skirmish.Proofs.Battle.Report

namespace Skirmish.Battle

variable {r : Stat.Rules} {c : Config} {b b' : Battle} {f g : Fighter} {id : String}

variable {among : String → Prop}

namespace Coherent

theorem fighter? (hb : Coherent among r c b) (hf : b.fighter? id = some f) :
    among f.id → UpToDate r c f :=
  (hb.fighters id f hf).2

theorem refreshed (hb : Coherent among r c b) (hf : among f.id → Rooted r c f)
    (h : refresh b.rules f = .ok g) : Coherent among r c (b.setFighter g) := by
  have hg : refresh r f = .ok g := hb.rules ▸ h
  refine hb.setFighter fun hid => upToDate_of_refresh (hf ?_) hg
  rwa [← (refreshWith_side hg).1]

theorem renewed (hb : Coherent among r c b) (h : renew b f = .ok g) : UpToDate r c g := by
  rw [← hb.rules, ← hb.config]
  exact upToDate_of_renew h

theorem recruited {hp mp : Option Quantity} (hb : Coherent among r c b)
    (h : recruit b f hp mp = .ok g) : UpToDate r c g := by
  obtain ⟨fresh, hfresh, hp, mp, rfl⟩ := recruit_eq_ok h
  have hup : UpToDate r c fresh := hb.renewed hfresh
  exact hup

theorem enroll {e : Enemy} (hb : Coherent among r c b) (h : b.enroll e id = .ok b') :
    Coherent among r c b' := by
  obtain ⟨f, hf, rfl⟩ := enroll_eq_ok h
  exact (hb.setFighter fun _ => hb.recruited hf).of_same ⟨rfl, rfl, rfl, rfl⟩

theorem enrollAll {seen : List String} {es : List Enemy} (hb : Coherent among r c b)
    (h : b.enrollAll seen es = .ok b') : Coherent among r c b' := by
  induction es generalizing b seen with
  | nil =>
      cases h
      exact hb
  | cons e es ih =>
      obtain ⟨d, hd, h⟩ := Fallible.bind_eq_ok.1 h
      exact ih (hb.enroll hd) h

theorem spawn {e : Enemy} (hb : Coherent among r c b) (h : b.spawn e = .ok b') :
    Coherent among r c b' := by
  simp only [Battle.spawn, Fallible.bind_eq_ok] at h
  obtain ⟨d, hd, initiative, -, h⟩ := h
  cases h
  exact (hb.enroll hd).of_same ⟨rfl, rfl, rfl, rfl⟩

theorem transform {e : Enemy} (hb : Coherent among r c b) (h : b.transform f e = .ok b') :
    Coherent among r c b' := by
  obtain ⟨g, hp, hg, rfl⟩ := transform_eq_ok h
  have hg : UpToDate r c g := hb.renewed hg
  exact (hb.setFighter (f := { g with hp }) fun _ => hg).of_same ⟨rfl, rfl, rfl, rfl⟩

theorem beginTurn (hb : Coherent among r c b) (hf : b.fighter? id = some f)
    (h : b.beginTurn f = .ok b') : Coherent among r c b' := by
  have hroot : among (turned f).id → Rooted r c (turned f) :=
    fun hid => (hb.fighter? hf hid).rooted
  obtain ⟨g, log, hg, rfl⟩ := beginTurn_eq_ok h
  exact (hb.refreshed hroot hg).of_same ⟨rfl, rfl, rfl, rfl⟩

theorem sayEffects_ends (b : Battle) (es : List Action.Effect) :
    Fallible.Ends (SameField b) (SameField b) (b.sayEffects es) := by
  have hsame : SameField b b := ⟨rfl, rfl, rfl, rfl⟩
  induction es generalizing b with
  | nil => exact hsame
  | cons e es ih =>
      simp only [sayEffects]
      split
      next => exact ih b hsame
      next =>
        refine (Fallible.ends_leaving hsame).bind fun message _ => ?_
        refine (ih (b.say message) ⟨rfl, rfl, rfl, rfl⟩).mono ?_ ?_
        all_goals exact fun d hd => ⟨hd.game, hd.rules, hd.config, hd.fighters⟩

theorem sayEffects_same {es : List Action.Effect} (h : b.sayEffects es = .ok b') :
    SameField b b' :=
  (sayEffects_ends b es).of_eq_ok h

theorem applyReport {x : Action.Report × Roster} (hb : Coherent among r c b)
    (hx : Action.Reported (Action.Accounted among r c) x)
    (h : { b with fighters := x.2 }.applyReport x.1 = .ok b') :
    Coherent among r c b' := by
  simp only [Battle.applyReport] at h
  split at h
  next hfailed =>
    cases h
    rcases hx with hx | ⟨hsuccess, -⟩
    · exact ⟨hb.rules, hb.config, hx.imp fun _ => Action.upToDate_of_accounted_nil⟩
    · simp [hsuccess] at hfailed
  next =>
    obtain ⟨d, hsay, h⟩ := Fallible.bind_eq_ok.1 h
    have hsame := sayEffects_same hsay
    have hall := hx.every Action.accounted_kept
    refine coherent_of_refreshAll ?_ ?_ ?_ h
    · exact hsame.rules.trans hb.rules
    · exact hsame.config.trans hb.config
    · rw [sayKilled, sayAll, hsame.fighters]
      refine hall.imp fun f hf hamong => ⟨(hf hamong).1, (hf hamong).2.imp_right ?_⟩
      rintro ⟨e, he, hchange, hid⟩
      exact List.mem_map.2 ⟨e, List.mem_filter.2 ⟨he, hchange⟩, hid⟩

theorem accounted (hb : Coherent among r c b) : b.fighters.Every (Action.Accounted among r c []) :=
  hb.fighters.imp fun _ hf => Action.accounted_of_upToDate hf

theorem basicAttackOn {attack : Quantity} {ids : List String} (hb : Coherent among r c b)
    (h : b.basicAttackOn attack ids = .ok b') : Coherent among r c b' := by
  induction ids generalizing b with
  | nil =>
      cases h
      exact hb
  | cons id ids ih =>
      simp only [Battle.basicAttackOn] at h
      split at h
      next => exact ih hb h
      next f hf =>
        simp only [Fallible.bind_eq_ok, Fallible.leaving_eq_ok, arithmetic,
          Fallible.mapError_eq_ok] at h
        obtain ⟨damage, -, after, hafter, h⟩ := h
        obtain ⟨hp, isAlive, rfl⟩ := Fighter.takeDamage_eq_ok hafter
        have hf : among f.id → UpToDate r c f := hb.fighter? (Option.filter_eq_some_iff.1 hf).1
        have hset := hb.setFighter (f := { f with hp, isAlive }) hf
        split at h
        all_goals
          refine ih ?_ h
          exact hset.of_same ⟨rfl, rfl, rfl, rfl⟩

theorem basicAttack {targets : List String} (hb : Coherent among r c b)
    (h : b.basicAttack f targets = .ok b') : Coherent among r c b' := by
  refine basicAttackOn ?_ h
  exact hb.of_same ⟨rfl, rfl, rfl, rfl⟩

theorem runSkill {o : Order} (hb : Coherent among r c b) (hf : among f.id → UpToDate r c f)
    (h : b.runSkill f o = .ok b') : Coherent among r c b' := by
  simp only [Battle.runSkill] at h
  split at h
  next => exact hb.basicAttack h
  next skill _ =>
    obtain ⟨⟨x, d⟩, hroll, h⟩ := Fallible.bind_eq_ok.1 h
    obtain ⟨dice, hrun, rfl⟩ := rollOr_eq_ok hroll
    have hx := (Action.useSkill_reported Action.accounted_kept hb.accounted
      (Action.accounted_of_upToDate hf)).yields _ x dice hrun
    exact applyReport (b := { b with dice }) ⟨hb.rules, hb.config, hb.fighters⟩ hx h

theorem runItem {o : Order} (hb : Coherent among r c b) (h : b.runItem f o = .ok b') :
    Coherent among r c b' := by
  simp only [Battle.runItem] at h
  split at h
  next =>
    cases h
    exact hb.of_same ⟨rfl, rfl, rfl, rfl⟩
  next item _ =>
    obtain ⟨⟨x, d⟩, hroll, h⟩ := Fallible.bind_eq_ok.1 h
    obtain ⟨dice, hrun, rfl⟩ := rollOr_eq_ok hroll
    have hx := (Action.useItem_reported Action.accounted_kept hb.accounted).yields _ x dice hrun
    exact applyReport (b := { b with dice }) ⟨hb.rules, hb.config, hb.fighters⟩ hx h

theorem runOrder {o : Order} (hb : Coherent among r c b) (hf : b.fighter? id = some f)
    (h : b.runOrder f o = .ok b') : Coherent among r c b' := by
  have hup : among f.id → UpToDate r c f := hb.fighter? hf
  simp only [Battle.runOrder] at h
  split at h
  · exact hb.runSkill hup h
  · exact hb.runItem h
  · cases h
    exact (hb.setFighter (f := { f with isDefending := true }) hup).of_same ⟨rfl, rfl, rfl, rfl⟩
  · cases h
  · cases h

theorem scriptBuff {stat : String} {value : Quantity} {duration : Option Int}
    (hb : Coherent among r c b) (hf : b.fighter? id = some f)
    (h : b.scriptBuff stat value duration f = .ok b') : Coherent among r c b' := by
  have hroot : among f.id → Rooted r c f := fun hid => (hb.fighter? hf hid).rooted
  obtain ⟨g, hg, h⟩ := Fallible.bind_eq_ok.1 h
  cases h
  have hg := Fallible.leaving_eq_ok.1 hg
  exact (hb.refreshed (f := f.addModifier _ "buff") hroot hg).of_same ⟨rfl, rfl, rfl, rfl⟩

theorem scriptHeal {amount : Quantity} (hb : Coherent among r c b) (hf : b.fighter? id = some f)
    (h : b.scriptHeal amount f = .ok b') : Coherent among r c b' := by
  simp only [Battle.scriptHeal, Fallible.bind_eq_ok, Fallible.mapError_eq_ok, Prod.exists] at h
  obtain ⟨g, gained, hg, shown, -, h⟩ := h
  obtain ⟨hp, rfl⟩ := Fighter.restoreHp_eq_ok hg
  cases h
  have hup := hb.fighter? hf
  exact (hb.setFighter (f := { f with hp }) hup).of_same ⟨rfl, rfl, rfl, rfl⟩

theorem scriptDamage {amount : Quantity} (hb : Coherent among r c b) (hf : b.fighter? id = some f)
    (h : b.scriptDamage amount f = .ok b') : Coherent among r c b' := by
  simp only [Battle.scriptDamage, arithmetic, Fallible.bind_eq_ok, Fallible.leaving_eq_ok,
    Fallible.mapError_eq_ok] at h
  obtain ⟨g, hg, shown, -, h⟩ := h
  obtain ⟨hp, isAlive, rfl⟩ := Fighter.takeDamage_eq_ok hg
  cases h
  have hup := hb.fighter? hf
  have hset := hb.setFighter (f := { f with hp, isAlive }) hup
  split
  · exact hset.of_same ⟨rfl, rfl, rfl, rfl⟩
  · exact hset.of_same ⟨rfl, rfl, rfl, rfl⟩

theorem scriptFlee (hb : Coherent among r c b) (hf : b.fighter? id = some f) :
    Coherent among r c (b.scriptFlee f) := by
  rw [Battle.scriptFlee]
  split
  · exact hb
  · have hup := hb.fighter? hf
    exact (hb.setFighter (f := { f with isAlive := false }) hup).of_same ⟨rfl, rfl, rfl, rfl⟩

theorem lasting : Lasting (Coherent among r c) where
  of_same hb h := hb.of_same h
  beginTurn hf h hb := hb.beginTurn hf h
  runOrder hf h hb := hb.runOrder hf h
  spawn h hb := hb.spawn h
  scriptBuff hf h hb := hb.scriptBuff hf h
  scriptHeal hf h hb := hb.scriptHeal hf h
  scriptDamage hf h hb := hb.scriptDamage hf h
  scriptFlee hf hb := hb.scriptFlee hf
  transform _ h hb := hb.transform h
  settle hf h hb := hb.refreshed (f := withoutMagic _) (fun hid => (hb.fighter? hf hid).rooted) h

theorem assemble {player : Option Character} {enemies : Option (List Enemy)}
    (h : b.assemble player enemies = .ok b') : Coherent among b.rules b.config b' := by
  simp only [Battle.assemble, recruitPlayer, Fallible.bind_eq_ok, Fallible.leaving_eq_ok] at h
  obtain ⟨p, ⟨modifiers, -, hp⟩, d, henroll, h⟩ := h
  cases h
  have hcleared : Coherent among b.rules b.config { b with fighters := {} } :=
    ⟨rfl, rfl, Roster.Every.empty⟩
  have hp : UpToDate b.rules b.config p := hcleared.recruited hp
  refine (enrollAll ?_ henroll).of_same ⟨rfl, rfl, rfl, rfl⟩
  exact (hcleared.setFighter fun _ => hp).of_same ⟨rfl, rfl, rfl, rfl⟩

end Coherent

end Skirmish.Battle

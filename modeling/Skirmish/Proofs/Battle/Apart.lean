import Skirmish.Proofs.Battle.Course

namespace Skirmish.Battle

open Fallible (Carries carries_leaving carries_mapError)

variable {b s : Battle}

/-- The field of one battle with all that is told beside it in another. -/
def aside (b s : Battle) : Battle :=
  { b with
    scene := s.scene, phase := s.phase, resume := s.resume, dialogs := s.dialogs
    listeners := s.listeners, notices := s.notices, triggers := s.triggers }

theorem aside_self (b : Battle) : b.aside b = b := rfl

theorem fighter?_aside (id : String) : (b.aside s).fighter? id = b.fighter? id := rfl

theorem setFighter_aside (f : Fighter) : (b.aside s).setFighter f = (b.setFighter f).aside s := rfl

theorem say_aside (message : String) : (b.aside s).say message = (b.say message).aside s := rfl

/-- What succeeds on a field does so beside anything else, and leaves that as it is. -/
def Apart (op : Battle → Result Battle) : Prop :=
  ∀ b s, Carries (fun b => b.aside s) (op b) (op (b.aside s))

theorem roll_aside {ε α : Type} (r : Roll ε α) (wrap wrap' : ε → Battle → Halt Error Battle) :
    Carries (fun x => (x.1, x.2.aside s)) (b.rollOr r wrap) ((b.aside s).rollOr r wrap') := by
  intro x hx
  obtain ⟨dice, hrun, hleft⟩ := rollOr_eq_ok hx
  have hrun' : r.run.run (b.aside s).dice = (.ok x.1, dice) := hrun
  rw [rollOr, hrun']
  simp only [hleft]
  rfl

theorem sayEffects_apart (es : List Action.Effect) : Apart fun b => b.sayEffects es := by
  intro b s
  induction es generalizing b with
  | nil => exact .ok
  | cons e es ih =>
      simp only [sayEffects, fighter?_aside]
      split
      · exact ih b
      · exact carries_leaving.bind fun message => ih (b.say message)

theorem refreshFighter_apart (id : String) : Apart fun b => b.refreshFighter id := by
  intro b s
  simp only [refreshFighter, fighter?_aside]
  split
  · exact .ok
  · exact carries_leaving.bind fun f => .ok

theorem refreshAll_apart (ids : List String) : Apart fun b => b.refreshAll ids := by
  intro b s
  induction ids generalizing b with
  | nil => exact .ok
  | cons id ids ih => exact (refreshFighter_apart id b s).bind fun d => ih d

theorem applyReport_apart (report : Action.Report) : Apart fun b => b.applyReport report := by
  intro b s
  simp only [applyReport, say_aside]
  split
  · exact .ok
  · exact (sayEffects_apart report.effects (b.say report.message) s).bind fun d =>
      refreshAll_apart _ (d.sayKilled report.killed) s

theorem basicAttackOn_apart (attack : Quantity) (ids : List String) :
    Apart fun b => b.basicAttackOn attack ids := by
  intro b s
  induction ids generalizing b with
  | nil => exact .ok
  | cons id ids ih =>
      simp only [basicAttackOn, fighter?_aside]
      split
      · exact ih b
      · refine carries_leaving.bind fun damage => carries_leaving.bind fun after => ?_
        simp only [id_eq, setFighter_aside, say_aside]
        split
        · exact ih _
        · exact ih _

theorem runSkill_apart (f : Fighter) (o : Order) : Apart fun b => b.runSkill f o := by
  intro b s
  simp only [runSkill]
  have hgame : (b.aside s).game = b.game := rfl
  rw [hgame]
  split
  · exact basicAttackOn_apart _ _ (b.say _) s
  · exact (roll_aside _ _ _).bind fun x => applyReport_apart x.1.1 { x.2 with fighters := x.1.2 } s

theorem runItem_apart (f : Fighter) (o : Order) : Apart fun b => b.runItem f o := by
  intro b s
  simp only [runItem]
  have hgame : (b.aside s).game = b.game := rfl
  rw [hgame]
  split
  · exact .ok
  · exact (roll_aside _ _ _).bind fun x => applyReport_apart x.1.1 { x.2 with fighters := x.1.2 } s

theorem runOrder_apart (f : Fighter) (o : Order) : Apart fun b => b.runOrder f o := by
  intro b s
  simp only [runOrder]
  split
  · exact runSkill_apart f o b s
  · exact runItem_apart f o b s
  · exact .ok
  · exact .error
  · exact .error

theorem beginTurn_apart (f : Fighter) : Apart fun b => b.beginTurn f := by
  intro b s
  simp only [beginTurn, say_aside]
  split
  all_goals exact carries_leaving.bind fun f => .ok

theorem enroll_apart (e : Enemy) (id : String) : Apart fun b => b.enroll e id :=
  fun _ _ => carries_leaving.bind fun _ => .ok

theorem enrollAll_apart (seen : List String) (es : List Enemy) :
    Apart fun b => b.enrollAll seen es := by
  intro b s
  induction es generalizing b seen with
  | nil => exact .ok
  | cons e es ih => exact (enroll_apart e _ b s).bind fun d => ih _ d

theorem spawn_apart (e : Enemy) : Apart fun b => b.spawn e := fun b s =>
  (enroll_apart e (freshId b.fighters e.id) b s).bind fun _ => carries_leaving.bind fun _ => .ok

theorem transform_apart (f : Fighter) (e : Enemy) : Apart fun b => b.transform f e := fun _ _ =>
  carries_leaving.bind fun _ => carries_leaving.bind fun _ => carries_leaving.bind fun _ => .ok

theorem scriptBuff_apart (stat : String) (value : Quantity) (duration : Option Int)
    (f : Fighter) : Apart fun b => b.scriptBuff stat value duration f :=
  fun _ _ => carries_leaving.bind fun _ => .ok

theorem scriptHeal_apart (amount : Quantity) (f : Fighter) :
    Apart fun b => b.scriptHeal amount f :=
  fun _ _ => carries_mapError.bind fun _ => carries_leaving.bind fun _ => .ok

theorem scriptDamage_apart (amount : Quantity) (f : Fighter) :
    Apart fun b => b.scriptDamage amount f := by
  intro b s
  refine carries_leaving.bind fun after => carries_leaving.bind fun shown => ?_
  simp only [id_eq]
  split
  all_goals exact .ok

theorem scriptFlee_apart (f : Fighter) : Apart fun b => .ok (b.scriptFlee f) := by
  intro b s
  simp only [scriptFlee]
  split
  all_goals exact .ok

theorem withFighter_apart {step : Battle → Fighter → Result Battle}
    (hstep : ∀ f, Apart fun b => step b f) (f? : Option Fighter) :
    Apart fun b => b.withFighter f? (step b) := by
  intro b s
  cases f? with
  | none => exact .ok
  | some f => exact hstep f b s

theorem target?_aside (target : Option String) : (b.aside s).target? target = b.target? target := by
  cases target <;> rfl

theorem living?_aside (target : Option String) : (b.aside s).living? target = b.living? target := by
  rw [living?, target?_aside, living?]

theorem named?_aside (target : Option String) : (b.aside s).named? target = b.named? target := by
  simp only [named?, fighter?_aside]

theorem scriptTransform_apart (enemyId : String) (target : Option String) :
    Apart fun b => b.scriptTransform enemyId target := by
  intro b s
  have hgame : (b.aside s).game = b.game := rfl
  simp only [scriptTransform, hgame, target?_aside]
  split
  · split
    · exact .ok
    · exact transform_apart _ _ b s
  · exact .ok

/-- Of all events only dialogs, alone or among several events, are told beside the field. -/
theorem perform_apart {e : Event}
    (hdialog : ∀ text speaker options, e ≠ .dialog text speaker options)
    (hmulti : ∀ events, e ≠ .multi events) : Apart fun b => perform b e := by
  intro b s
  have hgame : (b.aside s).game = b.game := rfl
  cases e with
  | dialog text speaker options => exact absurd rfl (hdialog text speaker options)
  | multi events => exact absurd rfl (hmulti events)
  | spawn enemyId =>
      simp only [perform, hgame]
      split
      · exact .ok
      · exact spawn_apart _ b s
  | buff stat value target duration =>
      simp only [perform, target?_aside]
      exact withFighter_apart (scriptBuff_apart stat value duration) _ b s
  | heal amount target =>
      simp only [perform, living?_aside]
      exact withFighter_apart (scriptHeal_apart amount) _ b s
  | damage amount target =>
      simp only [perform, living?_aside]
      exact withFighter_apart (scriptDamage_apart amount) _ b s
  | flee target =>
      simp only [perform, named?_aside]
      cases b.named? target with
      | none => exact .ok
      | some f => exact scriptFlee_apart f b s
  | transform enemyId target =>
      simp only [perform]
      exact scriptTransform_apart enemyId target b s
  | other text =>
      simp only [perform]
      exact .error

end Skirmish.Battle

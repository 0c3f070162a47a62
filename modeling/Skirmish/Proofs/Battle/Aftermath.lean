import Mathlib.Data.List.Induction
import Skirmish.Proofs.Battle.Lead
import Skirmish.Proofs.Battle.Rewards
import Skirmish.Proofs.Battle.Standing

namespace Skirmish.Battle

variable {b b' c : Battle} {k : Command} {ks : List Command}

/-- Each of the commands fits the battle that those before it leave. -/
def Admits (b : Battle) (ks : List Command) : Prop :=
  ∀ pre k, pre ++ [k] <+: ks → k.Fits (b.after pre)

theorem Admits.take {pre : List Command} (h : b.Admits ks) (hpre : pre <+: ks) : b.Admits pre :=
  fun l k hl => h l k (hl.trans hpre)

theorem Admits.concat (h : b.Admits ks) (hk : k.Fits (b.after ks)) : b.Admits (ks ++ [k]) := by
  intro pre k' hpre
  rcases List.prefix_concat_iff.1 hpre with heq | hpre
  · obtain ⟨rfl, hlast⟩ := List.append_inj' heq rfl
    obtain rfl : k' = k := List.cons.inj hlast |>.1
    exact hk
  · exact h pre k' hpre

theorem admits_of_start (hphase : b.phase = .start) (hks : Command.start ∉ ks) :
    b.Admits (.start :: ks) := by
  rintro (_ | ⟨k', pre⟩) k hpre rfl
  · exact hphase
  · have hmem : Command.start ∈ ks := (List.cons_prefix_cons.1 hpre).2.subset (by simp)
    exact absurd hmem hks

/-- A command failed, and the property has not held ever since. -/
def Derails (P : Battle → Prop) (b : Battle) (ks : List Command) : Prop :=
  ∃ pre k post halt, ks = pre ++ k :: post ∧ k.apply (b.after pre) = .error halt ∧
    ∀ mid, mid <+: post → ¬ P (b.after (pre ++ k :: mid))

theorem not_derails_of_follow {P : Battle → Prop} (h : b.follow ks = .ok c) : ¬ Derails P b ks := by
  rintro ⟨pre, k, post, halt, rfl, hfails, -⟩
  obtain ⟨d, hd⟩ := apply_of_follow h
  cases hd.symm.trans hfails

theorem Derails.concat {P : Battle → Prop} (h : Derails P b ks)
    (hlost : ¬ P (b.after (ks ++ [k]))) : Derails P b (ks ++ [k]) := by
  obtain ⟨pre, k', post, halt, rfl, hfails, hpost⟩ := h
  refine ⟨pre, k', post ++ [k], halt, by simp, hfails, fun mid hmid => ?_⟩
  rcases List.prefix_concat_iff.1 hmid with rfl | hmid
  · simpa using hlost
  · exact hpost mid hmid

/-- What commands keep as long as they come to an end holds, or a command that failed lost it. -/
theorem holds_or_derails {P : Battle → Prop} (hb : P b)
    (hstep : ∀ pre k c, pre ++ [k] <+: ks → P (b.after pre) → k.apply (b.after pre) = .ok c → P c) :
    P (b.after ks) ∨ Derails P b ks := by
  induction ks using List.reverseRecOn with
  | nil => exact .inl hb
  | append_singleton ks k ih =>
      have hbefore := ih fun pre k c hpre => hstep pre k c (hpre.trans (List.prefix_append _ _))
      by_cases hafter : P (b.after (ks ++ [k]))
      · exact .inl hafter
      refine .inr ?_
      rcases hbefore with hheld | hlost
      · -- the last command came upon the property and lost it, so it cannot have come to its end
        cases hk : k.apply (b.after ks) with
        | ok c =>
            refine absurd (hstep ks k c (List.prefix_refl _) hheld hk) ?_
            rwa [after_concat, leaves_of_eq_ok hk] at hafter
        | error halt =>
            refine ⟨ks, k, [], halt, rfl, hk, fun mid hmid => ?_⟩
            rwa [List.prefix_nil.1 hmid]
      · exact hlost.concat hafter

abbrev Phase.IsVerdict (q : Phase) : Prop := q = .victory ∨ q = .defeat

/-- What a battle keeps through commands that fail: rules, config and lead, and that no dialog
interrupts a verdict. Where it is started only once, it has an outcome just after a verdict. -/
structure Intact (r : Stat.Rules) (cfg : Config) (p : String) (once : Prop) (b : Battle) :
    Prop where
  rules : b.rules = r
  config : b.config = cfg
  led : Led p b
  resume : ∀ q ∈ b.resume, ¬ q.IsVerdict
  outcome : once → (b.outcome.isSome = true ↔ b.phase.IsVerdict)

abbrev KeepsIntact (r : Stat.Rules) (cfg : Config) (p : String) (once : Prop) (x : Result Battle) :
    Prop :=
  Fallible.Ends (Intact r cfg p once) (Intact r cfg p once) x

def Unmoved (b b' : Battle) : Prop :=
  (b'.rules, b'.config, b'.phase, b'.resume, b'.outcome) =
    (b.rules, b.config, b.phase, b.resume, b.outcome)

theorem Acted.unmoved (h : Acted b b') : Unmoved b b' := by
  obtain ⟨fighters, dice, log, rfl⟩ := h
  rfl

theorem Stirred.unmoved (h : Stirred b b') : Unmoved b b' := by
  obtain ⟨fighters, origins, buffsMade, log, rfl⟩ := h
  rfl

theorem spawn_unmoved (b : Battle) (e : Enemy) :
    Fallible.Ends (Unmoved b) (Unmoved b) (b.spawn e) := by
  have henroll : Fallible.Ends (Unmoved b) (Unmoved b) (b.enroll e (freshId b.fighters e.id)) :=
    Fallible.Ends.bind (Fallible.ends_leaving rfl) fun _ _ => rfl
  exact henroll.bind fun d hd => (Fallible.ends_leaving hd).bind fun _ _ => hd

namespace Intact

variable {r : Stat.Rules} {cfg : Config} {p : String} {once : Prop} {f : Fighter}

theorem of_unmoved (h : Intact r cfg p once b) (hsame : Unmoved b b') (hled : Led p b') :
    Intact r cfg p once b' := by
  simp only [Unmoved, Prod.mk.injEq] at hsame
  obtain ⟨hrules, hconfig, hphase, hresume, houtcome⟩ := hsame
  refine ⟨hrules.trans h.rules, hconfig.trans h.config, hled, ?_, ?_⟩
  · rw [hresume]
    exact h.resume
  · rw [houtcome, hphase]
    exact h.outcome

theorem keeps {x : Result Battle} (h : Intact r cfg p once b)
    (hx : Fallible.Ends (Unmoved b) (Unmoved b) x) (hled : KeepsLead p x) :
    KeepsIntact r cfg p once x := by
  refine (hx.and hled).mono ?_ ?_
  all_goals exact fun d hd => h.of_unmoved hd.1 hd.2

theorem congr (h : Intact r cfg p once b) (hsame : Unmoved b b')
    (hfield : b'.fighters = b.fighters) : Intact r cfg p once b' := by
  refine h.of_unmoved hsame ?_
  rw [Led, hfield]
  exact h.led

theorem move (q : Phase) (h : Intact r cfg p once b) (hopen : once → ¬ b.phase.IsVerdict)
    (hq : ¬ q.IsVerdict) (hresume : ∀ q ∈ b'.resume, ¬ q.IsVerdict)
    (hsame : (b'.rules, b'.config, b'.phase, b'.fighters, b'.outcome) =
      (b.rules, b.config, q, b.fighters, b.outcome)) : Intact r cfg p once b' := by
  simp only [Prod.mk.injEq] at hsame
  obtain ⟨hrules, hconfig, rfl, hfighters, houtcome⟩ := hsame
  refine ⟨hrules.trans h.rules, hconfig.trans h.config, ?_, hresume, fun honce => ?_⟩
  · rw [Led, hfighters]
    exact h.led
  · rw [houtcome]
    exact iff_of_false (mt (h.outcome honce).1 (hopen honce)) hq

theorem checkEnd (h : Intact r cfg p once b) : KeepsIntact r cfg p once b.checkEnd := by
  have hdecided : ∀ b', Concluded b b' → Intact r cfg p once b' := by
    rintro _ ⟨phase, outcome, dice, log, notices, hphase, rfl⟩
    exact ⟨h.rules, h.config, h.led, by simp, fun _ => iff_of_true rfl hphase⟩
  rw [Battle.checkEnd]
  split
  · exact h
  · split
    · exact hdecided _ ⟨_, _, _, _, _, .inr rfl, rfl⟩
    · split
      · -- there are always rewards, so that no victory is left without an outcome
        refine Fallible.Ends.bind (Q := fun x =>
          ∃ dice, x.2 = { b with phase := .victory, resume := [], dice }) ?_ ?_
        · refine rollOr_ends (fun e dice hrun => ?_) fun _ dice _ => ⟨dice, rfl⟩
          cases (rewards_run _ _).symm.trans hrun
        · rintro ⟨r, _⟩ ⟨dice, rfl⟩
          exact hdecided _ ⟨_, _, _, _, _, .inl rfl, rfl⟩
      · exact h

theorem roll {ε α : Type} {x : Roll ε α} {wrap : ε → Error} {step : α × Battle → Result Battle}
    (h : Intact r cfg p once b)
    (hstep : ∀ a dice, KeepsIntact r cfg p once (step (a, { b with dice }))) :
    KeepsIntact r cfg p once (b.roll x wrap >>= step) := by
  refine Fallible.Ends.bind (Q := fun y => ∃ dice, y.2 = { b with dice }) ?_ ?_
  · exact rollOr_ends (fun _ _ _ => h.congr rfl rfl) fun _ dice _ => ⟨dice, rfl⟩
  · rintro ⟨a, _⟩ ⟨dice, rfl⟩
    exact hstep a dice

theorem nextTurn (h : Intact r cfg p once b) : KeepsIntact r cfg p once b.nextTurn := by
  rw [Battle.nextTurn]
  split
  · exact h.congr rfl rfl
  · have hround : Intact r cfg p once { b with turn := b.turn + 1, index := 0 } := h.congr rfl rfl
    refine hround.roll fun queue dice => ?_
    dsimp only
    split
    · exact checkEnd (hround.congr rfl rfl)
    · exact hround.congr rfl rfl

theorem endTurn (h : Intact r cfg p once b) (hopen : ¬ b.phase.IsVerdict) :
    KeepsIntact r cfg p once b.endTurn := by
  have henter : Intact r cfg p once (b.enter .turnEnd) :=
    h.move .turnEnd (fun _ => hopen) (by decide) h.resume rfl
  exact henter.nextTurn

theorem executePending (h : Intact r cfg p once b) (hopen : ¬ b.phase.IsVerdict) :
    KeepsIntact r cfg p once b.executePending := by
  rw [Battle.executePending]
  split
  · exact h
  next o ho =>
    have henter : Intact r cfg p once (b.enter .actionExecute) :=
      h.move .actionExecute (fun _ => hopen) (by decide) h.resume rfl
    dsimp only
    split
    next =>
      exact endTurn (b := { b.enter .actionExecute with pending := none }) (henter.congr rfl rfl)
        (show ¬ Phase.actionExecute.IsVerdict by decide)
    next actor hactor =>
      have hrun : KeepsIntact r cfg p once ((b.enter .actionExecute).runOrder actor o) := by
        refine henter.keeps ?_ (henter.led.runOrder hactor)
        exact (Acted.runOrder_ends _ _ _).mono (fun _ => Acted.unmoved) fun _ => Acted.unmoved
      refine hrun.bind fun d hd => ?_
      have hchecked := checkEnd (b := { d with pending := none }) (hd.congr rfl rfl)
      refine hchecked.bind fun e he => ?_
      split
      next hphase => exact he.endTurn (by rw [hphase]; decide)
      next => exact he

theorem dispatch (h : Intact r cfg p once b) (hopen : ¬ b.phase.IsVerdict) :
    KeepsIntact r cfg p once (b.dispatch f) := by
  rw [Battle.dispatch]
  split
  · exact h.endTurn hopen
  · split
    · exact h.move .actionSelect (fun _ => hopen) (by decide) h.resume rfl
    · refine h.roll fun o dice => ?_
      exact executePending (b := { b with dice, pending := some o }) (h.congr rfl rfl) hopen

theorem queueDialog {d : Dialog} (h : Intact r cfg p once b) :
    KeepsIntact r cfg p once (b.queueDialog d) := by
  rw [Battle.queueDialog]
  dsimp only
  split
  · exact h.congr rfl rfl
  · split
    · exact h.congr rfl rfl
    next hover =>
      have hopen : ¬ b.phase.IsVerdict := by
        rintro (hphase | hphase)
        all_goals exact hover (by simp [isOver, hphase, Phase.isTerminal])
      split
      · split
        · exact h.congr rfl rfl
        · exact h.move .dialog (fun _ => hopen) (by decide) h.resume rfl
      · refine h.move .dialog (fun _ => hopen) (by decide) ?_ rfl
        exact List.forall_mem_cons.2 ⟨hopen, h.resume⟩

theorem withFighter {f? : Option Fighter} {step : Fighter → Result Battle}
    (h : Intact r cfg p once b) (hf? : ∀ f, f? = some f → ∃ id, b.fighter? id = some f)
    (hstep : ∀ f, Fallible.Ends (Stirred b) (Stirred b) (step f))
    (hled : ∀ f id, b.fighter? id = some f → KeepsLead p (step f)) :
    KeepsIntact r cfg p once (b.withFighter f? step) := by
  cases f? with
  | none => exact h
  | some f =>
      obtain ⟨id, hid⟩ := hf? f rfl
      refine h.keeps ?_ (hled f id hid)
      exact (hstep f).mono (fun _ => Stirred.unmoved) fun _ => Stirred.unmoved

theorem scriptTransform {enemyId : String} {target : Option String} (h : Intact r cfg p once b) :
    KeepsIntact r cfg p once (b.scriptTransform enemyId target) := by
  rw [Battle.scriptTransform]
  split
  next e f _ hf =>
    obtain ⟨id, hid⟩ := target?_eq_some hf
    split
    · exact h
    · refine h.keeps ?_ (h.led.transform hid)
      exact (Stirred.transform_ends b f e).mono (fun _ => Stirred.unmoved) fun _ => Stirred.unmoved
  next => exact h

mutual

theorem perform {b : Battle} (h : Intact r cfg p once b) :
    ∀ e : Event, KeepsIntact r cfg p once (Battle.perform b e)
  | .dialog text speaker options => by
      rw [Battle.perform]
      exact h.queueDialog
  | .spawn enemyId => by
      rw [Battle.perform]
      split
      · exact h
      next e _ => exact h.keeps (spawn_unmoved b e) h.led.spawn
  | .buff stat value target duration => by
      rw [Battle.perform]
      exact h.withFighter (fun _ => target?_eq_some)
        (fun f => Stirred.touches (Touched.scriptBuff_ends b stat value duration f))
        fun _ _ hf => h.led.scriptBuff hf
  | .heal amount target => by
      rw [Battle.perform]
      exact h.withFighter (fun _ => living?_eq_some)
        (fun f => Stirred.touches (Touched.scriptHeal_ends b amount f))
        fun _ _ hf => h.led.scriptHeal hf
  | .damage amount target => by
      rw [Battle.perform]
      exact h.withFighter (fun _ => living?_eq_some)
        (fun f => Stirred.touches (Touched.scriptDamage_ends b amount f))
        fun _ _ hf => h.led.scriptDamage hf
  | .flee target => by
      rw [Battle.perform]
      cases hnamed : b.named? target with
      | none => exact h
      | some f =>
          obtain ⟨id, hid⟩ := named?_eq_some hnamed
          exact h.of_unmoved (Stirred.scriptFlee b f).unmoved (h.led.scriptFlee hid)
  | .transform enemyId target => by
      rw [Battle.perform]
      exact h.scriptTransform
  | .multi events => by
      rw [Battle.perform]
      exact performAll h events
  | .other text => by
      rw [Battle.perform]
      exact h

theorem performAll {b : Battle} (h : Intact r cfg p once b) :
    ∀ es : List Event, KeepsIntact r cfg p once (Battle.performAll b es)
  | [] => by
      rw [Battle.performAll]
      exact h
  | e :: es => by
      rw [Battle.performAll]
      exact (perform h e).bind fun d hd => performAll hd es

end

theorem checkTriggers (h : Intact r cfg p once b) : KeepsIntact r cfg p once b.checkTriggers := by
  rw [Battle.checkTriggers]
  have hfired : Intact r cfg p once
      { b with triggers := (b.triggers.evaluate b.fighters.values (.whole b.turn)).2 } :=
    h.congr rfl rfl
  exact (Fallible.ends_leaving hfired).bind fun _ _ => hfired.performAll _

theorem not_isVerdict (hover : b.isOver = false) : ¬ b.phase.IsVerdict := by
  rintro (hphase | hphase)
  all_goals simp [isOver, hphase, Phase.isTerminal] at hover

theorem startTurn (h : Intact r cfg p once b) (hopen : ¬ b.phase.IsVerdict) :
    KeepsIntact r cfg p once b.startTurn := by
  have hstart : Intact r cfg p once { b with phase := .turnStart } :=
    h.move .turnStart (fun _ => hopen) (by decide) h.resume rfl
  rw [Battle.startTurn]
  split
  next => exact hstart.nextTurn
  next f hf =>
    obtain ⟨id, hid⟩ := current?_eq_some (Option.filter_eq_some_iff.1 hf).1
    have hbegin : KeepsIntact r cfg p once (Battle.beginTurn { b with phase := .turnStart } f) := by
      refine hstart.keeps ?_ (hstart.led.beginTurn hid)
      exact (Acted.beginTurn_ends _ f).mono (fun _ => Acted.unmoved) fun _ => Acted.unmoved
    refine hbegin.bind fun c hc => hc.checkTriggers.bind fun d hd => hd.checkEnd.bind fun e he => ?_
    split
    next => exact he.congr rfl rfl
    next hgoes =>
      have hgoes : e.isOver = false ∧ e.phase ≠ .dialog := by simpa using hgoes
      exact he.dispatch (not_isVerdict hgoes.1)

theorem run (h : Intact r cfg p once b) : KeepsIntact r cfg p once b.run := by
  have hturns := turns.partial_correctness
    (motive := fun b x => Intact r cfg p once b → KeepsIntact r cfg p once x)
  rw [Battle.run]
  cases hx : b.turns with
  | none => exact h
  | some x =>
      refine hturns ?_ b x hx h
      intro turns ih b x hx hb
      split at hx
      next hruns =>
        have hover : b.isOver = false := by
          have hruns := hruns
          simp only [isRunning, Bool.and_eq_true, Bool.not_eq_true'] at hruns
          exact hruns.1
        have hturn := hb.startTurn (not_isVerdict hover)
        split at hx
        next halt hhalt =>
          cases hx
          exact hturn.of_eq_error hhalt
        next c hc => exact ih c x hx (hturn.of_eq_ok hc)
      next =>
        cases hx
        exact hb

theorem start (h : Intact r cfg p once b) (hopen : once → ¬ b.phase.IsVerdict) :
    KeepsIntact r cfg p once b.start := by
  refine h.roll fun queue dice => ?_
  have hround : Intact r cfg p once
      { b with dice, queue, turn := 1, index := 0, phase := .turnStart } :=
    h.move .turnStart hopen (by decide) h.resume rfl
  exact hround.run

theorem attemptFlee (h : Intact r cfg p once b) (hopen : ¬ b.phase.IsVerdict) :
    KeepsIntact r cfg p once b.attemptFlee := by
  refine (Fallible.ends_leaving h).bind fun chance _ => ?_
  refine h.roll fun o dice => ?_
  dsimp only
  split
  · exact h.move .fled (fun _ => hopen) (by decide) (by simp [enter, notify]) rfl
  · have hfailed : Intact r cfg p once
        (say { b with dice, pending := none } "Failed to escape!") := h.congr rfl rfl
    exact (hfailed.endTurn hopen).bind fun d hd => hd.run

theorem selectAction {o : Order} (h : Intact r cfg p once b) :
    KeepsIntact r cfg p once (b.selectAction o) := by
  have hpending : Intact r cfg p once { b with pending := some o } := h.congr rfl rfl
  rw [Battle.selectAction]
  split
  · exact h
  next hphase =>
    have hopen : ¬ b.phase.IsVerdict := by
      rw [show b.phase = .actionSelect by simpa using hphase]
      decide
    split
    · exact h
    · split
      · exact h
      · dsimp only
        split
        · exact (hpending.executePending hopen).bind fun d hd => hd.run
        · exact hpending.attemptFlee hopen
        · exact hpending.move .targetSelect (fun _ => hopen) (by decide) h.resume rfl

theorem selectTargets {ids : List String} (h : Intact r cfg p once b) :
    KeepsIntact r cfg p once (b.selectTargets ids) := by
  rw [Battle.selectTargets]
  split
  · exact h
  next o _ =>
    split
    · exact h
    next hphase =>
      have hopen : ¬ b.phase.IsVerdict := by
        rw [show b.phase = .targetSelect by simpa using hphase]
        decide
      have hpending : Intact r cfg p once { b with pending := some { o with targets := ids } } :=
        h.congr rfl rfl
      exact (hpending.executePending hopen).bind fun d hd => hd.run

theorem cancelTargets (h : Intact r cfg p once b) : Intact r cfg p once b.cancelTargets := by
  rcases cancelTargets_cases b with heq | ⟨hphase, heq⟩
  · rwa [heq]
  · rw [heq]
    exact h.move .actionSelect (fun _ => by rw [hphase]; decide) (by decide) h.resume rfl

theorem resumePhase (h : Intact r cfg p once b) (hover : b.isOver = false) :
    KeepsIntact r cfg p once b.resumePhase := by
  have hprevious : ¬ (b.resume.headD .start).IsVerdict := by
    cases hresume : b.resume with
    | nil => decide
    | cons q qs => exact h.resume q (by simp [hresume])
  have htail : ∀ q ∈ b.resume.tail, ¬ q.IsVerdict :=
    fun q hq => h.resume q (List.mem_of_mem_tail hq)
  have hresumed : Intact r cfg p once
      { b with phase := b.resume.headD .start, resume := b.resume.tail } :=
    h.move _ (fun _ => not_isVerdict hover) hprevious htail rfl
  rw [Battle.resumePhase]
  split
  · exact hresumed.congr rfl rfl
  · split
    · exact hresumed.nextTurn.bind fun d hd => hd.run
    · exact (hresumed.dispatch hprevious).bind fun d hd => hd.run

theorem afterDialog (h : Intact r cfg p once b) : KeepsIntact r cfg p once b.afterDialog := by
  rw [Battle.afterDialog]
  split
  · exact h.congr rfl rfl
  next hgoes =>
    have hgoes : b.dialogs = [] ∧ b.isOver = false := by simpa using hgoes
    exact h.resumePhase hgoes.2

theorem dismissDialog (h : Intact r cfg p once b) : KeepsIntact r cfg p once b.dismissDialog := by
  rw [Battle.dismissDialog]
  split
  · exact h
  next d rest _ =>
    have hrest : Intact r cfg p once { b with dialogs := rest } := h.congr rfl rfl
    split
    · exact hrest.afterDialog
    · exact h

theorem chooseOption {id : String} (h : Intact r cfg p once b) :
    KeepsIntact r cfg p once (b.chooseOption id) := by
  rw [Battle.chooseOption]
  split
  · exact h
  next d rest _ =>
    have hrest : Intact r cfg p once { b with dialogs := rest } := h.congr rfl rfl
    split
    · exact h
    · dsimp only
      split
      · exact hrest.afterDialog
      next e _ =>
        exact (hrest.perform e).bind fun x hx => hx.checkEnd.bind fun y hy => hy.afterDialog

theorem settleAll {ids : List String} (h : Intact r cfg p once b) :
    KeepsIntact r cfg p once (b.settleAll ids) := by
  induction ids generalizing b with
  | nil => exact h
  | cons id ids ih =>
      rw [Battle.settleAll]
      split
      next => exact ih h
      next f hf =>
        have hset : ∀ g : Fighter, g.id = f.id ∧ g.isPlayer = f.isPlayer →
            Intact r cfg p once (b.setFighter g) := fun g hg =>
          h.of_unmoved rfl (h.led.replace hf hg.1 hg.2)
        refine Fallible.Ends.bind (Fallible.ends_leaving (hset _ ⟨rfl, rfl⟩)) fun g hg => ?_
        have hside := refreshWith_side hg
        exact ih (hset g hside)

theorem close (h : Intact r cfg p once b) : KeepsIntact r cfg p once b.close :=
  h.settleAll.bind fun _ hd => hd.congr rfl rfl

theorem apply (h : Intact r cfg p once b) (hk : once → k.Fits b) :
    KeepsIntact r cfg p once (k.apply b) := by
  cases k with
  | start => exact h.start fun honce => by rw [hk honce rfl]; decide
  | selectAction o => exact h.selectAction
  | selectTargets ids => exact h.selectTargets
  | cancelTargets => exact h.cancelTargets
  | queueDialog d => exact h.queueDialog
  | dismissDialog => exact h.dismissDialog
  | chooseOption id => exact h.chooseOption
  | perform e => exact h.perform e
  | close => exact h.close

theorem leaves (h : Intact r cfg p once b) (hk : once → k.Fits b) :
    Intact r cfg p once (k.leaves b) := by
  have happly := h.apply hk
  cases hok : k.apply b with
  | ok c =>
      rw [leaves_of_eq_ok hok]
      exact happly.of_eq_ok hok
  | error halt =>
      rw [leaves_of_eq_error hok]
      exact happly.of_eq_error hok

theorem after (h : Intact r cfg p once b) (hks : once → b.Admits ks) :
    Intact r cfg p once (b.after ks) := by
  induction ks using List.reverseRecOn with
  | nil => exact h
  | append_singleton ks k ih =>
      have hbefore := ih fun honce => (hks honce).take (List.prefix_append _ _)
      rw [after_concat]
      exact hbefore.leaves fun honce => hks honce ks k (List.prefix_refl _)

theorem assemble {player : Option Character} {enemies : Option (List Enemy)}
    (h : b.assemble player enemies = .ok b') :
    Intact b.rules b.config (player.getD b.game.player).id once b' := by
  have hb : AllUpToDate b.rules b.config b' := Coherent.assemble h
  have hstanding := (Paused.assemble h).standing
  refine ⟨hb.rules, hb.config, .assemble h, ?_, fun _ => hstanding.outcome⟩
  simp [hstanding.resume (by simp [phase_of_assemble h])]

theorem of_assemble {player : Option Character} {enemies : Option (List Enemy)}
    {pre : List Command} (h : b.assemble player enemies = .ok b') (hks : b'.Admits ks)
    (hpre : pre <+: ks) :
    Intact b.rules b.config (player.getD b.game.player).id True (b'.after pre) :=
  (Intact.assemble h).after fun _ => hks.take hpre

theorem config_of_reaches {s : Task} {x : Battle} (h : Intact r cfg p once b)
    (hreaches : Reaches (b, .command k) (x, s)) : x.config = cfg := by
  have hb : Coherent (fun _ => False) r cfg b :=
    ⟨h.rules, h.config, h.led.imp fun _ _ hnone => hnone.elim⟩
  exact (Coherent.lasting.reaches hreaches hb).config

end Intact

end Skirmish.Battle

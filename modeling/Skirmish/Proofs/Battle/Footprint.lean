import Skirmish.Proofs.Battle.Onward

namespace Skirmish.Battle

variable {b b' c : Battle} {f : Fighter}

def Acted (b b' : Battle) : Prop := ∃ fighters dice log, b' = { b with fighters, dice, log }

namespace Acted

theorem refl (b : Battle) : Acted b b := ⟨_, _, _, rfl⟩

theorem trans (h : Acted b c) (h' : Acted c b') : Acted b b' := by
  obtain ⟨fighters, dice, log, rfl⟩ := h
  obtain ⟨fighters', dice', log', rfl⟩ := h'
  exact ⟨fighters', dice', log', rfl⟩

theorem acts {x : Result Battle} (h : Acted b c) (hx : Fallible.Ends (Acted c) (Acted c) x) :
    Fallible.Ends (Acted b) (Acted b) x :=
  hx.mono (fun _ => h.trans) fun _ => h.trans

theorem sayEffects (b : Battle) (es : List Action.Effect) :
    Fallible.Ends (Acted b) (Acted b) (b.sayEffects es) := by
  induction es generalizing b with
  | nil => exact .refl b
  | cons e es ih =>
      simp only [Battle.sayEffects]
      split
      · exact ih b
      · refine (Fallible.ends_leaving (.refl b)).bind fun message _ => ?_
        exact acts ⟨_, _, _, rfl⟩ (ih (b.say message))

theorem refreshFighter (b : Battle) (id : String) :
    Fallible.Ends (Acted b) (Acted b) (b.refreshFighter id) := by
  rw [Battle.refreshFighter]
  split
  · exact .refl b
  · exact (Fallible.ends_leaving (.refl b)).bind fun g _ => ⟨_, _, _, rfl⟩

theorem refreshAll (b : Battle) (ids : List String) :
    Fallible.Ends (Acted b) (Acted b) (b.refreshAll ids) := by
  induction ids generalizing b with
  | nil => exact .refl b
  | cons id ids ih => exact (refreshFighter b id).bind fun c hc => hc.acts (ih c)

theorem applyReport (b : Battle) (report : Action.Report) :
    Fallible.Ends (Acted b) (Acted b) (b.applyReport report) := by
  simp only [Battle.applyReport]
  split
  · exact ⟨_, _, _, rfl⟩
  · have hsay : Fallible.Ends (Acted b) (Acted b)
        ((b.say report.message).sayEffects report.effects) := acts ⟨_, _, _, rfl⟩ (sayEffects _ _)
    exact hsay.bind fun c hc => (hc.trans ⟨_, _, _, rfl⟩).acts (refreshAll _ _)

theorem basicAttackOn (b : Battle) (attack : Quantity) (ids : List String) :
    Fallible.Ends (Acted b) (Acted b) (b.basicAttackOn attack ids) := by
  induction ids generalizing b with
  | nil => exact .refl b
  | cons id ids ih =>
      simp only [Battle.basicAttackOn]
      split
      · exact ih b
      · refine (Fallible.ends_leaving (.refl b)).bind fun damage _ => ?_
        refine (Fallible.ends_leaving (.refl b)).bind fun after _ => ?_
        split
        all_goals exact acts ⟨_, _, _, rfl⟩ (ih _)

theorem rolled (b : Battle) (r : Action.Attempt (Action.Report × Roster)) :
    Fallible.Ends (Acted b) (Acted b) (b.rollOr r haltedAll >>= fun x =>
      Battle.applyReport { x.2 with fighters := x.1.2 } x.1.1) := by
  have hroll : Fallible.Ends (Acted b) (fun x => Acted b x.2) (b.rollOr r haltedAll) :=
    rollOr_ends (fun _ _ _ => ⟨_, _, _, rfl⟩) fun _ _ _ => ⟨_, _, _, rfl⟩
  exact hroll.bind fun x hx => (hx.trans ⟨_, _, _, rfl⟩).acts (applyReport _ _)

theorem runOrder_ends (b : Battle) (f : Fighter) (o : Order) :
    Fallible.Ends (Acted b) (Acted b) (b.runOrder f o) := by
  rw [Battle.runOrder]
  split
  · rw [runSkill]
    split
    · exact acts ⟨_, _, _, rfl⟩ (basicAttackOn _ _ _)
    · exact rolled b _
  · rw [runItem]
    split
    · exact ⟨_, _, _, rfl⟩
    · exact rolled b _
  · exact ⟨_, _, _, rfl⟩
  · exact .refl b
  · exact .refl b

theorem runOrder {o : Order} (h : b.runOrder f o = .ok b') : Acted b b' :=
  (runOrder_ends b f o).of_eq_ok h

theorem beginTurn_ends (b : Battle) (f : Fighter) :
    Fallible.Ends (Acted b) (Acted b) (b.beginTurn f) := by
  simp only [Battle.beginTurn]
  split
  all_goals exact (Fallible.ends_leaving ⟨_, _, _, rfl⟩).bind fun g _ => ⟨_, _, _, rfl⟩

theorem beginTurn (h : b.beginTurn f = .ok b') : Acted b b' := (beginTurn_ends b f).of_eq_ok h

end Acted

def Touched (b b' : Battle) : Prop :=
  ∃ fighters buffsMade log, b' = { b with fighters, buffsMade, log }

namespace Touched

theorem refl (b : Battle) : Touched b b := ⟨_, _, _, rfl⟩

theorem scriptBuff_ends (b : Battle) (stat : String) (value : Quantity) (duration : Option Int)
    (f : Fighter) : Fallible.Ends (Touched b) (Touched b) (b.scriptBuff stat value duration f) :=
  (Fallible.ends_leaving ⟨_, _, _, rfl⟩).bind fun _ _ => ⟨_, _, _, rfl⟩

theorem scriptHeal_ends (b : Battle) (amount : Quantity) (f : Fighter) :
    Fallible.Ends (Touched b) (Touched b) (b.scriptHeal amount f) := by
  have hheal : Fallible.Ends (Touched b) (fun _ => True) ((f.restoreHp amount).mapError b.halted) :=
    Fallible.ends_mapError (Fallible.ends_true _) fun _ _ => ⟨_, _, _, rfl⟩
  refine hheal.bind fun x _ => ?_
  exact (Fallible.ends_leaving ⟨_, _, _, rfl⟩).bind fun _ _ => ⟨_, _, _, rfl⟩

theorem scriptDamage_ends (b : Battle) (amount : Quantity) (f : Fighter) :
    Fallible.Ends (Touched b) (Touched b) (b.scriptDamage amount f) := by
  refine (Fallible.ends_leaving (.refl b)).bind fun after _ => ?_
  refine (Fallible.ends_leaving ⟨_, _, _, rfl⟩).bind fun shown _ => ?_
  show Touched b (if Fighter.fell f after then _ else _)
  split
  · exact ⟨_, _, _, rfl⟩
  · exact ⟨_, _, _, rfl⟩

theorem scriptFlee (b : Battle) (f : Fighter) : Touched b (b.scriptFlee f) := by
  rw [Battle.scriptFlee]
  split
  · exact .refl b
  · exact ⟨_, _, _, rfl⟩

end Touched

/-- An event other than a dialog or an arrival: nobody joins the queue. -/
def Stirred (b b' : Battle) : Prop :=
  ∃ fighters origins buffsMade log, b' = { b with fighters, origins, buffsMade, log }

theorem Touched.stirred (h : Touched b b') : Stirred b b' := by
  obtain ⟨fighters, buffsMade, log, rfl⟩ := h
  exact ⟨_, _, _, _, rfl⟩

namespace Stirred

theorem refl (b : Battle) : Stirred b b := ⟨_, _, _, _, rfl⟩

theorem queue (h : Stirred b b') : b'.queue = b.queue := by
  obtain ⟨fighters, origins, buffsMade, log, rfl⟩ := h
  rfl

theorem touches {x : Result Battle} (hx : Fallible.Ends (Touched b) (Touched b) x) :
    Fallible.Ends (Stirred b) (Stirred b) x :=
  hx.mono (fun _ => Touched.stirred) fun _ => Touched.stirred

theorem transform_ends (b : Battle) (f : Fighter) (e : Enemy) :
    Fallible.Ends (Stirred b) (Stirred b) (b.transform f e) := by
  refine (Fallible.ends_leaving (.refl b)).bind fun ratio _ => ?_
  refine (Fallible.ends_leaving ⟨_, _, _, _, rfl⟩).bind fun g _ => ?_
  exact (Fallible.ends_leaving ⟨_, _, _, _, rfl⟩).bind fun hp _ => ⟨_, _, _, _, rfl⟩

theorem transform {e : Enemy} (h : b.transform f e = .ok b') : Stirred b b' :=
  (transform_ends b f e).of_eq_ok h

theorem scriptBuff {stat : String} {value : Quantity} {duration : Option Int}
    (h : b.scriptBuff stat value duration f = .ok b') : Stirred b b' :=
  (touches (Touched.scriptBuff_ends b stat value duration f)).of_eq_ok h

theorem scriptHeal {amount : Quantity} (h : b.scriptHeal amount f = .ok b') : Stirred b b' :=
  (touches (Touched.scriptHeal_ends b amount f)).of_eq_ok h

theorem scriptDamage {amount : Quantity} (h : b.scriptDamage amount f = .ok b') :
    Stirred b b' :=
  (touches (Touched.scriptDamage_ends b amount f)).of_eq_ok h

theorem scriptFlee (b : Battle) (f : Fighter) : Stirred b (b.scriptFlee f) :=
  (Touched.scriptFlee b f).stirred

end Stirred

theorem spawn_footprint {e : Enemy} (h : b.spawn e = .ok b') :
    ∃ d queue, Stirred b d ∧ b' = { d with queue } := by
  simp only [Battle.spawn, Fallible.bind_eq_ok] at h
  obtain ⟨c, henroll, initiative, -, h⟩ := h
  obtain ⟨f, -, rfl⟩ := enroll_eq_ok henroll
  cases h
  exact ⟨_, _, ⟨_, _, _, _, rfl⟩, rfl⟩

theorem happens_cases (h : Happens b b') :
    (∃ d, b.queueDialog d = .ok b') ∨ ∃ d queue, Stirred b d ∧ b' = { d with queue } := by
  cases h with
  | dialog h => exact .inl ⟨_, h⟩
  | spawn h => exact .inr (spawn_footprint h)
  | buff _ h => exact .inr ⟨_, _, .scriptBuff h, rfl⟩
  | heal _ h => exact .inr ⟨_, _, .scriptHeal h, rfl⟩
  | damage _ h => exact .inr ⟨_, _, .scriptDamage h, rfl⟩
  | flee _ => exact .inr ⟨_, _, .scriptFlee b _, rfl⟩
  | transform _ h => exact .inr ⟨_, _, .transform h, rfl⟩

def Contested (b : Battle) : Prop := b.players ≠ [] ∧ b.enemies ≠ []

def Concluded (b b' : Battle) : Prop :=
  ∃ phase outcome dice log notices, (phase = .victory ∨ phase = .defeat) ∧
    b' = { b with phase, resume := [], outcome := some outcome, dice, log, notices }

theorem Concluded.isOver (h : Concluded b b') : b'.isOver = true := by
  obtain ⟨phase, outcome, dice, log, notices, rfl | rfl, rfl⟩ := h
  all_goals rfl

theorem win_concluded (h : b.win = .ok b') : Concluded b b' := by
  obtain ⟨⟨r, c⟩, hroll, h⟩ := Fallible.bind_eq_ok.1 h
  obtain ⟨dice, -, rfl⟩ := roll_eq_ok hroll
  cases h
  exact ⟨_, _, _, _, _, .inl rfl, rfl⟩

theorem checkEnd_cases (h : b.checkEnd = .ok b') :
    b' = b ∧ (b.outcome.isSome = true ∨ b.Contested) ∨
      b.outcome = none ∧ ¬ b.Contested ∧ Concluded b b' := by
  simp only [checkEnd] at h
  split at h
  next hdone =>
    cases h
    exact .inl ⟨rfl, .inl hdone⟩
  next hdone =>
    have hnone : b.outcome = none := by simpa using hdone
    split at h
    next hlost =>
      cases h
      refine .inr ⟨hnone, fun hb => hb.1 (by simpa using hlost), ?_⟩
      exact ⟨_, _, _, _, _, .inr rfl, rfl⟩
    next hlost =>
      split at h
      next hwon =>
        exact .inr ⟨hnone, fun hb => hb.2 (by simpa using hwon), win_concluded h⟩
      next hwon =>
        cases h
        exact .inl ⟨rfl, .inr ⟨by simpa using hlost, by simpa using hwon⟩⟩

theorem nextTurn_cases (h : b.nextTurn = .ok b') :
    b.index + 1 < b.queue.length ∧ b' = { b with index := b.index + 1 } ∨
      b.queue.length ≤ b.index + 1 ∧ ∃ turn queue dice,
        (Initiative.queue b.config.initiativeVariance b.fighters.values).run.run b.dice =
          (.ok queue, dice) ∧
        (queue ≠ [] ∧ b' = { b with turn, index := 0, queue, dice } ∨
          queue = [] ∧ checkEnd { b with turn, index := 0, queue, dice } = .ok b') := by
  simp only [nextTurn] at h
  split at h
  next hmore =>
    cases h
    exact .inl ⟨hmore, rfl⟩
  next hmore =>
    obtain ⟨⟨queue, c⟩, hroll, h⟩ := Fallible.bind_eq_ok.1 h
    obtain ⟨dice, hrun, rfl⟩ := roll_eq_ok hroll
    refine .inr ⟨Nat.le_of_not_lt hmore, b.turn + 1, queue, dice, hrun, ?_⟩
    split at h
    next hempty => exact .inr ⟨by simpa using hempty, h⟩
    next hempty =>
      cases h
      exact .inl ⟨by simpa using hempty, rfl⟩

/-- A turn is passed over, or it begins: time passes, triggers fire, the outcome is checked; then
the fighter acts, unless the battle is over or a dialog waits. -/
theorem startTurn_cases (h : b.startTurn = .ok b') :
    (b.current?.filter Fighter.isAlive = none ∧ nextTurn { b with phase := .turnStart } = .ok b') ∨
      ∃ f c d e, b.current? = some f ∧ f.isAlive = true ∧
        beginTurn { b with phase := .turnStart } f = .ok c ∧ c.checkTriggers = .ok d ∧
        d.checkEnd = .ok e ∧
        ((e.isOver || e.phase = .dialog) = true ∧ b' = e.notify ∨
          (e.isOver || e.phase = .dialog) = false ∧
            e.dispatch ((e.fighter? f.id).getD f) = .ok b') := by
  have hcurrent : current? { b with phase := .turnStart } = b.current? := rfl
  simp only [startTurn, hcurrent] at h
  split at h
  next hnone => exact .inl ⟨hnone, h⟩
  next f hf =>
    obtain ⟨hf, halive⟩ := Option.filter_eq_some_iff.1 hf
    obtain ⟨c, hbegin, h⟩ := Fallible.bind_eq_ok.1 h
    obtain ⟨d, htriggers, h⟩ := Fallible.bind_eq_ok.1 h
    obtain ⟨e, hend, h⟩ := Fallible.bind_eq_ok.1 h
    refine .inr ⟨f, c, d, e, hf, halive, hbegin, htriggers, hend, ?_⟩
    split at h
    next hstops =>
      cases h
      exact .inl ⟨hstops, rfl⟩
    next hstops => exact .inr ⟨by simpa using hstops, h⟩

theorem executePending_cases {o : Order} (ho : b.pending = some o)
    (h : b.executePending = .ok b') :
    (∃ notices, endTurn { b with phase := .actionExecute, notices, pending := none } = .ok b') ∨
      ∃ f c d notices, b.fighter? o.actorId = some f ∧
        Acted { b with phase := .actionExecute, notices } c ∧
        checkEnd { c with pending := none } = .ok d ∧
        (d.phase = .actionExecute ∧ d.endTurn = .ok b' ∨ d.phase ≠ .actionExecute ∧ b' = d) := by
  simp only [executePending, ho] at h
  split at h
  next => exact .inl ⟨_, h⟩
  next f hf =>
    obtain ⟨c, hrun, h⟩ := Fallible.bind_eq_ok.1 h
    obtain ⟨d, hend, h⟩ := Fallible.bind_eq_ok.1 h
    refine .inr ⟨f, c, d, _, hf, .runOrder hrun, hend, ?_⟩
    split at h
    next hgoes => exact .inl ⟨hgoes, h⟩
    next hgoes =>
      cases h
      exact .inr ⟨hgoes, rfl⟩

theorem dispatch_cases (h : b.dispatch f = .ok b') :
    f.isAlive = false ∧ b.endTurn = .ok b' ∨
      f.isAlive = true ∧ f.isPlayer = true ∧ b' = b.enter .actionSelect ∨
      f.isAlive = true ∧ f.isPlayer = false ∧ ∃ o dice,
        executePending { b with dice, pending := some o } = .ok b' := by
  simp only [dispatch] at h
  split at h
  next hdead => exact .inl ⟨by simpa using hdead, h⟩
  next halive =>
    have halive : f.isAlive = true := by simpa using halive
    split at h
    next hplayer =>
      cases h
      exact .inr (.inl ⟨halive, hplayer, rfl⟩)
    next hplayer =>
      obtain ⟨⟨o, c⟩, hroll, h⟩ := Fallible.bind_eq_ok.1 h
      obtain ⟨dice, -, rfl⟩ := roll_eq_ok hroll
      exact .inr (.inr ⟨halive, by simpa using hplayer, o, dice, h⟩)

theorem queueDialog_cases {d : Dialog} (h : b.queueDialog d = .ok b') :
    ((b.phase = .dialog ∨ b.isOver = true) ∧
        ∃ notices, b' = { b with dialogs := b.dialogs ++ [d], notices }) ∨
      b.phase ≠ .dialog ∧ b.isOver = false ∧ ∃ resume notices,
        (b.resume ≠ [] ∧ resume = b.resume ∨ resume = b.phase :: b.resume) ∧
        b' = { b with dialogs := b.dialogs ++ [d], resume, phase := .dialog, notices } := by
  have hover : isOver { b with dialogs := b.dialogs ++ [d] } = b.isOver := rfl
  simp only [queueDialog, hover] at h
  split at h
  next hdialog =>
    cases h
    exact .inl ⟨.inl hdialog, _, rfl⟩
  next hdialog =>
    split at h
    next hends =>
      cases h
      exact .inl ⟨.inr hends, _, rfl⟩
    next hends =>
      refine .inr ⟨hdialog, by simpa using hends, ?_⟩
      split at h
      next =>
        split at h
        next => cases h
        next hresume =>
          cases h
          exact ⟨_, _, .inl ⟨by simpa using hresume, rfl⟩, rfl⟩
      next =>
        cases h
        exact ⟨_, _, .inr rfl, rfl⟩

theorem happen_leaves (hsteps : Relation.ReflTransGen Happens b b') :
    b'.pending = b.pending ∧ b'.triggers = b.triggers ∧ b'.outcome = b.outcome := by
  induction hsteps with
  | refl => exact ⟨rfl, rfl, rfl⟩
  | tail _ hstep ih =>
      rcases happens_cases hstep with
        ⟨d, hd⟩ | ⟨d, queue, ⟨fighters, origins, buffsMade, log, rfl⟩, rfl⟩
      · rcases queueDialog_cases hd with ⟨-, notices, rfl⟩ | ⟨-, -, resume, notices, -, rfl⟩
        all_goals exact ih
      · exact ih

end Skirmish.Battle

import Skirmish.Proofs.Battle.Course

namespace Skirmish.Battle

inductive Task where
  | command (c : Command)
  | attemptFlee
  | turns
  | startTurn
  | dispatch (f : Fighter)
  | executePending
  | perform (e : Event)
  | performAll (es : List Event)
  | queueDialog (d : Dialog)
  | afterDialog
  | resumePhase

abbrev Call := Battle × Task

def Call.result : Call → Result Battle
  | (b, .command c) => c.apply b
  | (b, .attemptFlee) => b.attemptFlee
  | (b, .turns) => b.run
  | (b, .startTurn) => b.startTurn
  | (b, .dispatch f) => b.dispatch f
  | (b, .executePending) => b.executePending
  | (b, .perform e) => Battle.perform b e
  | (b, .performAll es) => Battle.performAll b es
  | (b, .queueDialog d) => b.queueDialog d
  | (b, .afterDialog) => b.afterDialog
  | (b, .resumePhase) => b.resumePhase

def resumed (b : Battle) : Battle :=
  { b with phase := .turnStart, resume := b.resume.tail }

/-- A call asks for another one; what went before it has come to an end. -/
inductive Calls : Call → Call → Prop
  | start {b c : Battle} {queue : List Initiative.Entry} (hqueue : b.rollQueue = .ok (queue, c)) :
      Calls (b, .command .start)
        ({ c with queue, turn := 1, index := 0, phase := .turnStart }, .turns)
  | defend {b : Battle} {o : Order} (hphase : b.phase = .actionSelect) (hkind : o.kind = .defend)
      (hactor : b.current?.map Fighter.id = some o.actorId) :
      Calls (b, .command (.selectAction o)) ({ b with pending := some o }, .executePending)
  | defended {b c : Battle} {o : Order} (hphase : b.phase = .actionSelect)
      (hkind : o.kind = .defend) (hactor : b.current?.map Fighter.id = some o.actorId)
      (hdone : executePending { b with pending := some o } = .ok c) :
      Calls (b, .command (.selectAction o)) (c, .turns)
  | flee {b : Battle} {o : Order} (hphase : b.phase = .actionSelect) (hkind : o.kind = .flee)
      (hactor : b.current?.map Fighter.id = some o.actorId) :
      Calls (b, .command (.selectAction o)) ({ b with pending := some o }, .attemptFlee)
  | caught {b c d : Battle} {chance : Quantity} {o : Chance.Outcome}
      (hchance : b.config.fleeChance.mul 100 = .ok chance)
      (hroll : b.roll (Chance.test chance) id = .ok (o, c)) (hfailed : o.success = false)
      (hend : (say { c with pending := none } "Failed to escape!").endTurn = .ok d) :
      Calls (b, .attemptFlee) (d, .turns)
  | target {b : Battle} {o : Order} {ids : List String} (hpending : b.pending = some o)
      (hphase : b.phase = .targetSelect) :
      Calls (b, .command (.selectTargets ids))
        ({ b with pending := some { o with targets := ids } }, .executePending)
  | targeted {b c : Battle} {o : Order} {ids : List String} (hpending : b.pending = some o)
      (hphase : b.phase = .targetSelect)
      (hdone : executePending { b with pending := some { o with targets := ids } } = .ok c) :
      Calls (b, .command (.selectTargets ids)) (c, .turns)
  | say {b : Battle} {d : Dialog} : Calls (b, .command (.queueDialog d)) (b, .queueDialog d)
  | perform {b : Battle} {e : Event} : Calls (b, .command (.perform e)) (b, .perform e)
  | dismiss {b : Battle} {d : Dialog} {rest : List Dialog} (hdialogs : b.dialogs = d :: rest)
      (hplain : d.options = []) :
      Calls (b, .command .dismissDialog) ({ b with dialogs := rest }, .afterDialog)
  | choose {b : Battle} {d : Dialog} {rest : List Dialog} {id : String} {o : DialogOption}
      (hdialogs : b.dialogs = d :: rest) (hoption : d.options.find? (·.id = id) = some o)
      (hevent : o.event? = none) :
      Calls (b, .command (.chooseOption id)) ({ b with dialogs := rest }, .afterDialog)
  | answer {b : Battle} {d : Dialog} {rest : List Dialog} {id : String} {o : DialogOption}
      {e : Event} (hdialogs : b.dialogs = d :: rest)
      (hoption : d.options.find? (·.id = id) = some o) (hevent : o.event? = some e) :
      Calls (b, .command (.chooseOption id)) ({ b with dialogs := rest }, .perform e)
  | answered {b x y : Battle} {d : Dialog} {rest : List Dialog} {id : String} {o : DialogOption}
      {e : Event} (hdialogs : b.dialogs = d :: rest)
      (hoption : d.options.find? (·.id = id) = some o) (hevent : o.event? = some e)
      (hdone : Battle.perform { b with dialogs := rest } e = .ok x) (hend : x.checkEnd = .ok y) :
      Calls (b, .command (.chooseOption id)) (y, .afterDialog)
  | resume {b : Battle} (hdialogs : b.dialogs = []) (hover : b.isOver = false) :
      Calls (b, .afterDialog) (b, .resumePhase)
  | resumeTurn {b : Battle} {f : Fighter} (hresume : b.resume.headD .start = .turnStart)
      (hcurrent : b.current? = some f) : Calls (b, .resumePhase) (b.resumed, .dispatch f)
  | resumedTurn {b c : Battle} {f : Fighter} (hresume : b.resume.headD .start = .turnStart)
      (hcurrent : b.current? = some f) (hdone : b.resumed.dispatch f = .ok c) :
      Calls (b, .resumePhase) (c, .turns)
  | resumedNext {b c : Battle} (hresume : b.resume.headD .start = .turnStart)
      (hcurrent : b.current? = none) (hnext : b.resumed.nextTurn = .ok c) :
      Calls (b, .resumePhase) (c, .turns)
  | turn {b : Battle} (hruns : b.isRunning = true) : Calls (b, .turns) (b, .startTurn)
  | turned {b c : Battle} (hruns : b.isRunning = true) (hdone : b.startTurn = .ok c) :
      Calls (b, .turns) (c, .turns)
  | trigger {b c : Battle} {f : Fighter} {fired : List Trigger}
      (hcurrent : b.current? = some f) (halive : f.isAlive = true)
      (hbegin : beginTurn { b with phase := .turnStart } f = .ok c)
      (hfired : (c.triggers.evaluate c.fighters.values (.whole c.turn)).1 = .ok fired) :
      Calls (b, .startTurn)
        ({ c with triggers := (c.triggers.evaluate c.fighters.values (.whole c.turn)).2 },
          .performAll (fired.map Trigger.event))
  | act {b c d e : Battle} {f : Fighter} (hcurrent : b.current? = some f)
      (halive : f.isAlive = true) (hbegin : beginTurn { b with phase := .turnStart } f = .ok c)
      (htriggers : c.checkTriggers = .ok d) (hend : d.checkEnd = .ok e)
      (hover : e.isOver = false) (hdialog : e.phase ≠ .dialog) :
      Calls (b, .startTurn) (e, .dispatch ((e.fighter? f.id).getD f))
  | enemy {b c : Battle} {f : Fighter} {o : Order} (halive : f.isAlive = true)
      (hplayer : f.isPlayer = false) (horder : b.enemyOrder f = .ok (o, c)) :
      Calls (b, .dispatch f) ({ c with pending := some o }, .executePending)
  | dialog {b : Battle} {text : String} {speaker : Option String} {options : List DialogOption} :
      Calls (b, .perform (.dialog text speaker options))
        (b, .queueDialog ⟨b.speakerOr speaker, text, options⟩)
  | multi {b : Battle} {es : List Event} : Calls (b, .perform (.multi es)) (b, .performAll es)
  | first {b : Battle} {e : Event} {es : List Event} :
      Calls (b, .performAll (e :: es)) (b, .perform e)
  | rest {b c : Battle} {e : Event} {es : List Event} (hdone : Battle.perform b e = .ok c) :
      Calls (b, .performAll (e :: es)) (c, .performAll es)

/-- A call is made on the way of another one, directly or not. -/
abbrev Reaches : Call → Call → Prop := Relation.ReflTransGen Calls

section

variable {b : Battle} {o : Order}

theorem selectAction_defend (hphase : b.phase = .actionSelect) (hkind : o.kind = .defend)
    (hactor : b.current?.map Fighter.id = some o.actorId) :
    b.selectAction o = executePending { b with pending := some o } >>= run := by
  simp [selectAction, hphase, hkind, hactor]

theorem selectAction_flee (hphase : b.phase = .actionSelect) (hkind : o.kind = .flee)
    (hactor : b.current?.map Fighter.id = some o.actorId) :
    b.selectAction o = attemptFlee { b with pending := some o } := by
  simp [selectAction, hphase, hkind, hactor]

theorem selectAction_item (hphase : b.phase = .actionSelect) (hkind : o.kind = .item)
    (hactor : b.current?.map Fighter.id = some o.actorId) :
    b.selectAction o = .ok (enter { b with pending := some o } .targetSelect) := by
  simp [selectAction, hphase, hkind, hactor]

theorem selectTargets_eq {ids : List String} (hpending : b.pending = some o)
    (hphase : b.phase = .targetSelect) :
    b.selectTargets ids =
      executePending { b with pending := some { o with targets := ids } } >>= run := by
  simp [selectTargets, hphase, hpending]

theorem resumePhase_of_turnStart (hresume : b.resume.headD .start = .turnStart) :
    b.resumePhase =
      match b.current? with
      | none => b.resumed.nextTurn >>= run
      | some f => b.resumed.dispatch f >>= run := by
  have hcurrent : b.resumed.current? = b.current? := rfl
  simp only [resumePhase, hresume, ne_eq, not_true_eq_false, if_false]
  rfl

theorem startTurn_of_isAlive {f : Fighter} (hcurrent : b.current? = some f)
    (halive : f.isAlive = true) :
    b.startTurn = (do
      let c ← beginTurn { b with phase := .turnStart } f
      let d ← c.checkTriggers
      let e ← d.checkEnd
      if e.isOver || e.phase = .dialog then return e.notify
      else e.dispatch ((e.fighter? f.id).getD f)) := by
  have hsame : current? { b with phase := .turnStart } = some f := hcurrent
  simp only [startTurn, hsame, Option.filter_some, halive, if_true]

end

theorem Lasting.calls {P : Battle → Prop} {s t : Call} (h : Lasting P) (hcall : Calls s t)
    (hs : P s.1) : P t.1 := by
  have hsame : ∀ {b b' : Battle}, P b → SameField b b' → P b' := h.of_same
  cases hcall with
  | start hqueue => exact hsame (h.rollQueue hqueue hs) ⟨rfl, rfl, rfl, rfl⟩
  | defended _ _ _ hdone => exact h.executePending hdone (hsame hs ⟨rfl, rfl, rfl, rfl⟩)
  | caught _ hroll _ hend =>
      obtain ⟨dice, -, rfl⟩ := roll_eq_ok hroll
      exact h.endTurn hend (hsame hs ⟨rfl, rfl, rfl, rfl⟩)
  | targeted _ _ hdone => exact h.executePending hdone (hsame hs ⟨rfl, rfl, rfl, rfl⟩)
  | answered _ _ _ hdone hend =>
      exact h.checkEnd hend (h.perform hdone (hsame hs ⟨rfl, rfl, rfl, rfl⟩))
  | resumedTurn _ _ hdone => exact h.dispatch hdone (hsame hs ⟨rfl, rfl, rfl, rfl⟩)
  | resumedNext _ _ hnext => exact h.nextTurn hnext (hsame hs ⟨rfl, rfl, rfl, rfl⟩)
  | turned _ hdone => exact h.startTurn hdone hs
  | @trigger b _ _ _ hcurrent _ hbegin _ =>
      obtain ⟨id, hid⟩ := current?_eq_some hcurrent
      have hturn : P { b with phase := .turnStart } := hsame hs ⟨rfl, rfl, rfl, rfl⟩
      have hc := h.beginTurn (b := { b with phase := .turnStart }) hid hbegin hturn
      exact hsame hc ⟨rfl, rfl, rfl, rfl⟩
  | @act b _ _ _ _ hcurrent _ hbegin htriggers hend _ _ =>
      obtain ⟨id, hid⟩ := current?_eq_some hcurrent
      have hturn : P { b with phase := .turnStart } := hsame hs ⟨rfl, rfl, rfl, rfl⟩
      have hc := h.beginTurn (b := { b with phase := .turnStart }) hid hbegin hturn
      exact h.checkEnd hend (h.checkTriggers htriggers hc)
  | enemy _ _ horder =>
      obtain ⟨dice, -, rfl⟩ := roll_eq_ok horder
      exact hsame hs ⟨rfl, rfl, rfl, rfl⟩
  | rest hdone => exact h.perform hdone hs
  | _ => exact hsame hs ⟨rfl, rfl, rfl, rfl⟩

theorem Lasting.reaches {P : Battle → Prop} {s t : Call} (h : Lasting P) (hreaches : Reaches s t)
    (hs : P s.1) : P t.1 := by
  induction hreaches with
  | refl => exact hs
  | tail _ hcall ih => exact h.calls hcall ih

theorem Calls.failsWith {s t : Call} {e : Error} (h : Calls s t)
    (he : Fallible.FailsWith t.result e) : Fallible.FailsWith s.result e := by
  obtain ⟨left, he⟩ := he
  cases h
  case turned hruns hdone => exact run_failsWith hruns hdone ⟨left, he⟩
  all_goals
    refine ⟨left, ?_⟩
    simp only [Call.result, Command.apply] at he ⊢
  case start hqueue => simp [Battle.start, hqueue, he]
  case defend hphase hkind hactor => simp [selectAction_defend hphase hkind hactor, he]
  case defended hphase hkind hactor hdone =>
    simp [selectAction_defend hphase hkind hactor, hdone, he]
  case flee hphase hkind hactor => rw [selectAction_flee hphase hkind hactor, he]
  case caught hchance hroll hfailed hend =>
    simp [Battle.attemptFlee, arithmetic, hchance, hroll, hfailed, hend, he]
  case target hpending hphase => simp [selectTargets_eq hpending hphase, he]
  case targeted hpending hphase hdone => simp [selectTargets_eq hpending hphase, hdone, he]
  case say => exact he
  case perform => exact he
  case dismiss hdialogs hplain => simp [Battle.dismissDialog, hdialogs, hplain, he]
  case choose hdialogs hoption hevent =>
    simp [Battle.chooseOption, hdialogs, hoption, hevent, he]
  case answer hdialogs hoption hevent =>
    simp [Battle.chooseOption, hdialogs, hoption, hevent, he]
  case answered hdialogs hoption hevent hdone hend =>
    simp [Battle.chooseOption, hdialogs, hoption, hevent, hdone, hend, he]
  case resume hdialogs hover => simp [Battle.afterDialog, hdialogs, hover, he]
  case resumeTurn hresume hcurrent => simp [resumePhase_of_turnStart hresume, hcurrent, he]
  case resumedTurn hresume hcurrent hdone =>
    simp [resumePhase_of_turnStart hresume, hcurrent, hdone, he]
  case resumedNext hresume hcurrent hnext =>
    simp [resumePhase_of_turnStart hresume, hcurrent, hnext, he]
  case turn hruns => exact run_of_startTurn_error hruns he
  case trigger hcurrent halive hbegin hfired =>
    simp [startTurn_of_isAlive hcurrent halive, checkTriggers, arithmetic, hbegin, hfired, he]
  case act hcurrent halive hbegin htriggers hend hover hdialog =>
    simp [startTurn_of_isAlive hcurrent halive, hbegin, htriggers, hend, hover, hdialog, he]
  case enemy halive hplayer horder => simp [Battle.dispatch, halive, hplayer, horder, he]
  case dialog => rw [Battle.perform, he]
  case multi => rw [Battle.perform, he]
  case first => simp [Battle.performAll, he]
  case rest hdone => simp [Battle.performAll, hdone, he]

end Skirmish.Battle

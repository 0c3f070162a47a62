import Skirmish.Proofs.Battle.CommandCases
import Skirmish.Proofs.Battle.Footprint
import Skirmish.Proofs.Battle.Hush

namespace Skirmish

/-- The events of a scene: those of its triggers, those that they are made of, and those that the
options of their dialogs carry. -/
inductive Scene.Scripts (s : Scene) : Event → Prop
  | trigger {t : Trigger} (h : t ∈ s.triggers) : Scripts s t.event
  | part {e : Event} {events : List Event} (h : Scripts s (.multi events)) (he : e ∈ events) :
      Scripts s e
  | option {e : Event} {text : String} {speaker : Option String} {options : List DialogOption}
      {o : DialogOption} (h : Scripts s (.dialog text speaker options)) (ho : o ∈ options)
      (he : o.event? = some e) : Scripts s e

namespace Battle

def Dialog.ScriptedBy (d : Dialog) (s : Scene) : Prop :=
  ∀ o ∈ d.options, ∀ e, o.event? = some e → s.Scripts e

def Command.OfScene (s : Scene) : Command → Prop
  | .selectAction o => o.kind ∈ Order.Kind.known
  | .queueDialog d => d.ScriptedBy s
  | .perform e => s.Scripts e
  | _ => True

/-- The states between the commands of a battle: it may be assembled anew at any time, with any
player and with enemies of the game. -/
inductive InScene (g : Game) (s : Scene) : Battle → Prop
  | create (r : Stat.Rules) (config : Config) (dice : Dice) :
      InScene g s (Battle.create g (some s) r config dice)
  | assemble {b b' : Battle} {player : Option Character} {enemies : Option (List Enemy)}
      (hb : InScene g s b) (henemies : ∀ es, enemies = some es → ∀ e ∈ es, e ∈ g.enemies)
      (h : b.assemble player enemies = .ok b') : InScene g s b'
  | command {b b' : Battle} {k : Command} (hb : InScene g s b) (hk : k.OfScene s)
      (h : k.apply b = .ok b') : InScene g s b'

/-- A battle of the game and the scene, with enemies of the one and events of the other. -/
structure Staged (g : Game) (s : Scene) (b : Battle) : Prop where
  game : b.game = g
  scene : b.scene = some s
  origins : ∀ id e, b.origins.get? id = some e → e ∈ g.enemies
  triggers : ∀ t ∈ b.triggers.triggers, s.Scripts t.event
  dialogs : ∀ d ∈ b.dialogs, d.ScriptedBy s

variable {g : Game} {s : Scene} {b b' c : Battle} {f : Fighter}

theorem mem_of_enemy? {id : String} {e : Enemy} (h : g.enemy? id = some e) : e ∈ g.enemies :=
  List.mem_of_find?_eq_some h

namespace Staged

theorem of_eq (hb : Staged g s b)
    (h : (b'.game, b'.scene, b'.origins, b'.triggers, b'.dialogs) =
      (b.game, b.scene, b.origins, b.triggers, b.dialogs)) : Staged g s b' := by
  simp only [Prod.mk.injEq] at h
  obtain ⟨hgame, hscene, horigins, htriggers, hdialogs⟩ := h
  exact ⟨hgame.trans hb.game, hscene.trans hb.scene, horigins ▸ hb.origins,
    htriggers ▸ hb.triggers, hdialogs ▸ hb.dialogs⟩

theorem setOrigin (hb : Staged g s b) {id : String} {e : Enemy} (he : e ∈ g.enemies) :
    Staged g s { b with origins := b.origins.insert id e } where
  game := hb.game
  scene := hb.scene
  origins := by
    intro id' e' h
    rw [Table.get?_insert] at h
    split at h
    · cases h
      exact he
    · exact hb.origins id' e' h
  triggers := hb.triggers
  dialogs := hb.dialogs

theorem rest (hb : Staged g s b) {d : Dialog} {rest : List Dialog} (h : b.dialogs = d :: rest) :
    Staged g s { b with dialogs := rest } :=
  ⟨hb.game, hb.scene, hb.origins, hb.triggers,
    fun d hd => hb.dialogs d (h ▸ List.mem_cons_of_mem _ hd)⟩

theorem scripts_of_option (hb : Staged g s b) {d : Dialog} {rest : List Dialog}
    {o : DialogOption} {id : String} {e : Event} (hdialogs : b.dialogs = d :: rest)
    (ho : d.options.find? (·.id = id) = some o) (he : o.event? = some e) : s.Scripts e :=
  hb.dialogs d (hdialogs ▸ List.mem_cons_self ..) o (List.mem_of_find?_eq_some ho) e he

theorem acted (h : Acted b b') (hb : Staged g s b) : Staged g s b' := by
  obtain ⟨fighters, dice, log, rfl⟩ := h
  exact hb.of_eq rfl

theorem touched (h : Touched b b') (hb : Staged g s b) : Staged g s b' := by
  obtain ⟨fighters, buffsMade, log, rfl⟩ := h
  exact hb.of_eq rfl

theorem checkEnd (h : b.checkEnd = .ok b') (hb : Staged g s b) : Staged g s b' := by
  rcases checkEnd_cases h with ⟨rfl, -⟩ | ⟨-, -, phase, outcome, dice, log, notices, -, rfl⟩
  · exact hb
  · exact hb.of_eq rfl

theorem nextTurn (h : b.nextTurn = .ok b') (hb : Staged g s b) : Staged g s b' := by
  rcases nextTurn_cases h with ⟨-, rfl⟩ | ⟨-, turn, queue, dice, -, ⟨-, rfl⟩ | ⟨-, hend⟩⟩
  · exact hb.of_eq rfl
  · exact hb.of_eq rfl
  · exact checkEnd hend (hb.of_eq rfl)

theorem endTurn (h : b.endTurn = .ok b') (hb : Staged g s b) : Staged g s b' := by
  rw [Battle.endTurn] at h
  exact nextTurn h (hb.of_eq rfl)

theorem executePending (h : b.executePending = .ok b') (hb : Staged g s b) : Staged g s b' := by
  cases ho : b.pending with
  | none =>
      simp only [Battle.executePending, ho] at h
      cases h
      exact hb
  | some o =>
      rcases executePending_cases ho h with
        ⟨notices, hend⟩ | ⟨f, c, d, notices, -, hacted, hend, hgoes⟩
      · exact endTurn hend (hb.of_eq rfl)
      · have hc : Staged g s c := acted hacted (hb.of_eq rfl)
        have hd : Staged g s d := checkEnd hend (hc.of_eq rfl)
        rcases hgoes with ⟨-, hend⟩ | ⟨-, rfl⟩
        · exact hd.endTurn hend
        · exact hd

theorem dispatch (h : b.dispatch f = .ok b') (hb : Staged g s b) : Staged g s b' := by
  rcases dispatch_cases h with ⟨-, hend⟩ | ⟨-, -, rfl⟩ | ⟨-, -, o, dice, hexecute⟩
  · exact hb.endTurn hend
  · exact hb.of_eq rfl
  · exact executePending hexecute (hb.of_eq rfl)

theorem queueDialog {d : Dialog} (h : b.queueDialog d = .ok b') (hd : d.ScriptedBy s)
    (hb : Staged g s b) : Staged g s b' := by
  have hall : Staged g s { b with dialogs := b.dialogs ++ [d] } := by
    refine ⟨hb.game, hb.scene, hb.origins, hb.triggers, fun d' hd' => ?_⟩
    rcases List.mem_append.1 hd' with hd' | hd'
    · exact hb.dialogs d' hd'
    · rwa [List.mem_singleton.1 hd']
  rcases queueDialog_cases h with ⟨-, notices, rfl⟩ | ⟨-, -, resume, notices, -, rfl⟩
  all_goals exact hall.of_eq rfl

theorem enroll {e : Enemy} {id : String} (h : b.enroll e id = .ok b') (he : e ∈ g.enemies)
    (hb : Staged g s b) : Staged g s b' := by
  obtain ⟨f, -, rfl⟩ := enroll_eq_ok h
  exact (hb.setOrigin he).of_eq rfl

theorem spawn {e : Enemy} (h : b.spawn e = .ok b') (he : e ∈ g.enemies) (hb : Staged g s b) :
    Staged g s b' := by
  simp only [Battle.spawn, Fallible.bind_eq_ok] at h
  obtain ⟨c, henroll, initiative, -, h⟩ := h
  cases h
  exact (hb.enroll henroll he).of_eq rfl

theorem transform {e : Enemy} (h : b.transform f e = .ok b') (he : e ∈ g.enemies)
    (hb : Staged g s b) : Staged g s b' := by
  obtain ⟨k, hp, -, rfl⟩ := transform_eq_ok h
  exact (hb.setOrigin he).of_eq rfl

theorem scriptTransform {enemyId : String} {target : Option String}
    (h : b.scriptTransform enemyId target = .ok b') (hb : Staged g s b) : Staged g s b' := by
  simp only [Battle.scriptTransform] at h
  split at h
  next e f he _ =>
    split at h
    · cases h
      exact hb
    · exact hb.transform h (mem_of_enemy? (hb.game ▸ he))
  next =>
    cases h
    exact hb

theorem withFighter {f? : Option Fighter} {step : Fighter → Result Battle}
    (h : b.withFighter f? step = .ok b') (hstep : ∀ f, step f = .ok b' → Touched b b')
    (hb : Staged g s b) : Staged g s b' := by
  rcases withFighter_eq_ok h with rfl | ⟨f, -, h⟩
  · exact hb
  · exact touched (hstep f h) hb

theorem scriptFlee (f? : Option Fighter) (hb : Staged g s b) :
    Staged g s ((f?.map b.scriptFlee).getD b) := by
  cases f? with
  | none => exact hb
  | some f => exact touched (.scriptFlee b f) hb

mutual

theorem perform {g : Game} {s : Scene} {b b' : Battle} :
    ∀ e : Event, Battle.perform b e = .ok b' → s.Scripts e → Staged g s b → Staged g s b'
  | .dialog text speaker options, h, he, hb => by
      rw [Battle.perform] at h
      exact hb.queueDialog h fun o ho e hevent => he.option ho hevent
  | .spawn enemyId, h, _, hb => by
      rw [Battle.perform] at h
      split at h
      · cases h
        exact hb
      next e hfound => exact hb.spawn h (mem_of_enemy? (hb.game ▸ hfound))
  | .buff stat value target duration, h, _, hb => by
      rw [Battle.perform] at h
      exact hb.withFighter h fun f => (Touched.scriptBuff_ends b stat value duration f).of_eq_ok
  | .heal amount target, h, _, hb => by
      rw [Battle.perform] at h
      exact hb.withFighter h fun f => (Touched.scriptHeal_ends b amount f).of_eq_ok
  | .damage amount target, h, _, hb => by
      rw [Battle.perform] at h
      exact hb.withFighter h fun f => (Touched.scriptDamage_ends b amount f).of_eq_ok
  | .flee target, h, _, hb => by
      rw [Battle.perform] at h
      cases h
      exact hb.scriptFlee _
  | .transform enemyId target, h, _, hb => by
      rw [Battle.perform] at h
      exact hb.scriptTransform h
  | .multi events, h, he, hb => by
      rw [Battle.perform] at h
      exact performAll events h (fun e => he.part) hb
  | .other text, h, _, _ => by
      rw [Battle.perform] at h
      cases h

theorem performAll {g : Game} {s : Scene} {b b' : Battle} :
    ∀ es : List Event, Battle.performAll b es = .ok b' → (∀ e ∈ es, s.Scripts e) →
      Staged g s b → Staged g s b'
  | [], h, _, hb => by
      rw [Battle.performAll] at h
      cases h
      exact hb
  | e :: es, h, hes, hb => by
      rw [Battle.performAll, Fallible.bind_eq_ok] at h
      obtain ⟨c, hc, h⟩ := h
      have hstaged : Staged g s c := perform e hc (hes e (List.mem_cons_self ..)) hb
      exact performAll es h (fun e he => hes e (List.mem_cons_of_mem _ he)) hstaged

end

theorem scripts_of_fired {turn : Quantity} {fighters : List Fighter} {fired : List Trigger}
    (h : (b.triggers.evaluate fighters turn).1 = .ok fired) (hb : Staged g s b) :
    ∀ e ∈ fired.map Trigger.event, s.Scripts e := by
  intro e he
  obtain ⟨t, ht, rfl⟩ := List.mem_map.1 he
  exact hb.triggers t (Trigger.Book.subset_of_evaluate h ht)

theorem evaluated (fighters : List Fighter) (turn : Quantity) (hb : Staged g s b) :
    Staged g s { b with triggers := (b.triggers.evaluate fighters turn).2 } where
  game := hb.game
  scene := hb.scene
  origins := hb.origins
  triggers := by
    rw [Trigger.Book.triggers_evaluate]
    exact hb.triggers
  dialogs := hb.dialogs

theorem checkTriggers (h : b.checkTriggers = .ok b') (hb : Staged g s b) : Staged g s b' := by
  simp only [Battle.checkTriggers, arithmetic, Fallible.bind_eq_ok, Fallible.leaving_eq_ok,
    Fallible.mapError_eq_ok] at h
  obtain ⟨fired, hfired, h⟩ := h
  exact performAll _ h (hb.scripts_of_fired hfired) (hb.evaluated ..)

theorem beginTurn (h : beginTurn { b with phase := .turnStart } f = .ok b') (hb : Staged g s b) :
    Staged g s b' :=
  acted (.beginTurn h) (hb.of_eq rfl)

theorem startTurn (h : b.startTurn = .ok b') (hb : Staged g s b) : Staged g s b' := by
  rcases startTurn_cases h with
    ⟨-, hnext⟩ | ⟨f, c, d, e, -, -, hbegin, htriggers, hend, hgoes⟩
  · exact nextTurn hnext (hb.of_eq rfl)
  · have he : Staged g s e := ((hb.beginTurn hbegin).checkTriggers htriggers).checkEnd hend
    rcases hgoes with ⟨-, rfl⟩ | ⟨-, hdispatch⟩
    · exact he.of_eq rfl
    · exact he.dispatch hdispatch

theorem run (h : b.run = .ok b') (hb : Staged g s b) : Staged g s b' :=
  (run_induction (fun _ _ hc _ hturn => startTurn hturn hc) h hb).1

theorem attemptFlee (h : b.attemptFlee = .ok b') (hb : Staged g s b) : Staged g s b' := by
  rcases attemptFlee_cases h with ⟨dice, log, notices, rfl⟩ | ⟨dice, log, c, hend, hrun⟩
  · exact hb.of_eq rfl
  · exact run hrun (endTurn hend (hb.of_eq rfl))

theorem resumePhase (h : b.resumePhase = .ok b') (hb : Staged g s b) : Staged g s b' := by
  rcases resumePhase_cases h with ⟨-, rfl⟩ | ⟨-, c, hrun, ⟨-, hnext⟩ | ⟨f, -, hdispatch⟩⟩
  · exact hb.of_eq rfl
  · exact run hrun (nextTurn hnext (hb.of_eq rfl))
  · exact run hrun (dispatch hdispatch (hb.of_eq rfl))

theorem afterDialog (h : b.afterDialog = .ok b') (hb : Staged g s b) : Staged g s b' := by
  rcases afterDialog_cases h with ⟨-, rfl⟩ | ⟨-, -, hresume⟩
  · exact hb.of_eq rfl
  · exact hb.resumePhase hresume

theorem start (h : b.start = .ok b') (hb : Staged g s b) : Staged g s b' := by
  simp only [Battle.start, Fallible.bind_eq_ok, Prod.exists] at h
  obtain ⟨queue, c, hqueue, h⟩ := h
  obtain ⟨dice, -, rfl⟩ := roll_eq_ok hqueue
  exact run h (hb.of_eq rfl)

theorem selectAction {o : Order} (h : b.selectAction o = .ok b') (hb : Staged g s b) :
    Staged g s b' := by
  rcases selectAction_cases h with
    rfl | ⟨-, -, ⟨-, c, hdone, hrun⟩ | ⟨-, hflee⟩ | ⟨-, rfl⟩⟩
  · exact hb
  · exact run hrun (executePending hdone (hb.of_eq rfl))
  · exact attemptFlee hflee (hb.of_eq rfl)
  · exact hb.of_eq rfl

theorem selectTargets {ids : List String} (h : b.selectTargets ids = .ok b')
    (hb : Staged g s b) : Staged g s b' := by
  rcases selectTargets_cases h with rfl | ⟨o, c, -, -, hdone, hrun⟩
  · exact hb
  · exact run hrun (executePending hdone (hb.of_eq rfl))

theorem cancelTargets (hb : Staged g s b) : Staged g s b.cancelTargets := by
  rcases cancelTargets_cases b with hnothing | ⟨-, hcancel⟩
  · rwa [hnothing]
  · rw [hcancel]
    exact hb.of_eq rfl

theorem dismissDialog (h : b.dismissDialog = .ok b') (hb : Staged g s b) : Staged g s b' := by
  rcases dismissDialog_cases h with rfl | ⟨d, rest, hdialogs, -, hafter⟩
  · exact hb
  · exact (hb.rest hdialogs).afterDialog hafter

theorem chooseOption {id : String} (h : b.chooseOption id = .ok b') (hb : Staged g s b) :
    Staged g s b' := by
  rcases chooseOption_cases h with rfl | ⟨d, rest, o, hdialogs, hoption, hgoes⟩
  · exact hb
  · rcases hgoes with ⟨-, hafter⟩ | ⟨e, x, y, hevent, hdone, hend, hafter⟩
    · exact (hb.rest hdialogs).afterDialog hafter
    · have he := hb.scripts_of_option hdialogs hoption hevent
      exact ((perform e hdone he (hb.rest hdialogs)).checkEnd hend).afterDialog hafter

theorem settleAll {ids : List String} (h : b.settleAll ids = .ok b') (hb : Staged g s b) :
    Staged g s b' := by
  induction ids generalizing b with
  | nil =>
      cases h
      exact hb
  | cons id ids ih =>
      simp only [Battle.settleAll] at h
      split at h
      next => exact ih h hb
      next f hf =>
        obtain ⟨k, -, h⟩ := Fallible.bind_eq_ok.1 h
        exact ih h (hb.of_eq rfl)

theorem close (h : b.close = .ok b') (hb : Staged g s b) : Staged g s b' := by
  simp only [Battle.close, Fallible.bind_eq_ok] at h
  obtain ⟨c, hsettle, h⟩ := h
  cases h
  have hc : Staged g s c := hb.settleAll hsettle
  exact ⟨hc.game, hc.scene, hc.origins, by simp [Trigger.Book.clear], hc.dialogs⟩

theorem apply {k : Command} (h : k.apply b = .ok b') (hk : k.OfScene s) (hb : Staged g s b) :
    Staged g s b' := by
  cases k with
  | start => exact hb.start h
  | selectAction o => exact hb.selectAction h
  | selectTargets ids => exact hb.selectTargets h
  | cancelTargets =>
      cases h
      exact hb.cancelTargets
  | queueDialog d => exact hb.queueDialog h hk
  | dismissDialog => exact hb.dismissDialog h
  | chooseOption id => exact hb.chooseOption h
  | perform e => exact perform e h hk hb
  | close => exact hb.close h

theorem setTriggers (k : Trigger.Book) :
    ∀ t ∈ (k.setTriggers s.triggers).triggers, s.Scripts t.event := by
  intro t ht
  obtain ⟨t', ht', id, rfl⟩ := Trigger.Book.exists_of_mem_assignIds ht
  exact Scene.Scripts.trigger (t := t') ht'

theorem create (r : Stat.Rules) (config : Config) (dice : Dice) :
    Staged g s (Battle.create g (some s) r config dice) where
  game := rfl
  scene := rfl
  origins id e h := by cases h
  triggers := by
    rw [Battle.create]
    dsimp only
    split
    · simp
    · exact setTriggers _
  dialogs := by simp [Battle.create]

theorem enrollAll {seen : List String} {es : List Enemy} (h : b.enrollAll seen es = .ok b')
    (hes : ∀ e ∈ es, e ∈ g.enemies) (hb : Staged g s b) : Staged g s b' := by
  induction es generalizing b seen with
  | nil =>
      cases h
      exact hb
  | cons e es ih =>
      obtain ⟨c, hc, h⟩ := Fallible.bind_eq_ok.1 h
      refine ih h (fun e he => hes e (List.mem_cons_of_mem _ he)) ?_
      exact hb.enroll hc (hes e (List.mem_cons_self ..))

theorem sceneEnemies (hb : Staged g s b) : ∀ e ∈ b.sceneEnemies, e ∈ g.enemies := by
  intro e he
  rw [Battle.sceneEnemies, hb.scene, hb.game] at he
  obtain ⟨id, -, hid⟩ := List.mem_filterMap.1 he
  exact mem_of_enemy? hid

theorem assemble {player : Option Character} {enemies : Option (List Enemy)}
    (h : b.assemble player enemies = .ok b')
    (henemies : ∀ es, enemies = some es → ∀ e ∈ es, e ∈ g.enemies) (hb : Staged g s b) :
    Staged g s b' := by
  simp only [Battle.assemble, Fallible.bind_eq_ok] at h
  obtain ⟨f, -, c, henroll, h⟩ := h
  have hall : ∀ e ∈ enemies.getD b.sceneEnemies, e ∈ g.enemies := by
    cases enemies with
    | none => exact hb.sceneEnemies
    | some es => exact henemies es rfl
  have hc : Staged g s c := by
    refine enrollAll henroll hall ⟨hb.game, hb.scene, ?_, hb.triggers, by simp [setFighter]⟩
    rintro id e ⟨⟩
  cases h
  refine ⟨hc.game, hc.scene, hc.origins, ?_, hc.dialogs⟩
  rw [say, notify]
  simp only [hc.scene]
  exact setTriggers _

theorem of_inScene (h : InScene g s b) : Staged g s b := by
  induction h with
  | create r config dice => exact create r config dice
  | assemble _ henemies h ih => exact ih.assemble h henemies
  | command _ hk h ih => exact ih.apply h hk

end Staged

def Task.OfScene (s : Scene) : Task → Prop
  | .command k => k.OfScene s
  | .perform e => s.Scripts e
  | .performAll es => ∀ e ∈ es, s.Scripts e
  | .queueDialog d => d.ScriptedBy s
  | _ => True

variable {x y : Call}

theorem Calls.ofScene (h : Calls x y) (hx : Staged g s x.1 ∧ x.2.OfScene s) :
    Staged g s y.1 ∧ y.2.OfScene s := by
  obtain ⟨hb, htask⟩ := hx
  cases h with
  | start hqueue =>
      obtain ⟨dice, -, rfl⟩ := roll_eq_ok hqueue
      exact ⟨hb.of_eq rfl, trivial⟩
  | defended _ _ _ hdone => exact ⟨Staged.executePending hdone (hb.of_eq rfl), trivial⟩
  | caught _ hroll _ hend =>
      obtain ⟨dice, -, rfl⟩ := roll_eq_ok hroll
      exact ⟨Staged.endTurn hend (hb.of_eq rfl), trivial⟩
  | targeted _ _ hdone => exact ⟨Staged.executePending hdone (hb.of_eq rfl), trivial⟩
  | say => exact ⟨hb, htask⟩
  | perform => exact ⟨hb, htask⟩
  | dismiss hdialogs _ => exact ⟨hb.rest hdialogs, trivial⟩
  | choose hdialogs _ _ => exact ⟨hb.rest hdialogs, trivial⟩
  | answer hdialogs hoption hevent =>
      exact ⟨hb.rest hdialogs, hb.scripts_of_option hdialogs hoption hevent⟩
  | answered hdialogs hoption hevent hdone hend =>
      have he := hb.scripts_of_option hdialogs hoption hevent
      exact ⟨(Staged.perform _ hdone he (hb.rest hdialogs)).checkEnd hend, trivial⟩
  | resumedTurn _ _ hdone => exact ⟨Staged.dispatch hdone (hb.of_eq rfl), trivial⟩
  | resumedNext _ _ hnext => exact ⟨Staged.nextTurn hnext (hb.of_eq rfl), trivial⟩
  | turned _ hdone => exact ⟨hb.startTurn hdone, trivial⟩
  | trigger _ _ hbegin hfired =>
      have hc := hb.beginTurn hbegin
      exact ⟨hc.evaluated .., hc.scripts_of_fired hfired⟩
  | act _ _ hbegin htriggers hend _ _ =>
      exact ⟨((hb.beginTurn hbegin).checkTriggers htriggers).checkEnd hend, trivial⟩
  | enemy _ _ horder =>
      obtain ⟨dice, -, rfl⟩ := roll_eq_ok horder
      exact ⟨hb.of_eq rfl, trivial⟩
  | dialog => exact ⟨hb, fun o ho e hevent => htask.option ho hevent⟩
  | multi => exact ⟨hb, fun e => htask.part⟩
  | first => exact ⟨hb, htask _ (List.mem_cons_self ..)⟩
  | rest hdone =>
      exact ⟨Staged.perform _ hdone (htask _ (List.mem_cons_self ..)) hb,
        fun e he => htask e (List.mem_cons_of_mem _ he)⟩
  | _ => exact ⟨hb.of_eq rfl, trivial⟩

theorem Reaches.ofScene {k : Command} (hb : InScene g s b) (hk : k.OfScene s)
    (h : Reaches (b, .command k) y) : Staged g s y.1 ∧ y.2.OfScene s := by
  induction h with
  | refl => exact ⟨.of_inScene hb, hk⟩
  | tail _ hcall ih => exact hcall.ofScene ih

end Battle

end Skirmish

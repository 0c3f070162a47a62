import Skirmish.Proofs.Battle.Chronicle
import Skirmish.Proofs.Battle.Consistency
import Skirmish.Proofs.Modifier.Automaton

namespace Skirmish.Battle

variable {ts : List Trigger} {b c d m x y : Battle} {e : Event} {es : List Event}
  {f g : Fighter} {k : Command} {last : Option Battle} {q : List Initiative.Entry} {s t : Call}
  {xs ys : List Battle}

/-- The place in the queue that has been reached. -/
def slot? (b : Battle) : Option Initiative.Entry := b.queue[b.index]?

/-- The fighter whose turn begins when a turn is started; nobody's if it has fallen. -/
def beginner? (b : Battle) : Option Fighter := b.current?.filter Fighter.isAlive

/-- Everybody is still on the field; modifiers have come and debuffs have gone, but no turn has
passed for any of them: an entry that is no debuff is as it was. -/
def Pauses (b c : Battle) : Prop :=
  ∀ id f, b.fighter? id = some f → ∃ g, c.fighter? id = some g ∧
    f.modifiers.Edits g.modifiers ∧ ∀ k h, f.modifiers.get? k = some h → h.source ≠ "debuff" →
      g.modifiers.get? k = some h

/-- A turn that goes on keeps its place; fighters may join the queue, but no turn passes for
modifiers and no trigger fires. -/
structure Stays (b c : Battle) : Prop where
  turn : c.turn = b.turn
  index : c.index = b.index
  queue : b.queue <+: c.queue
  triggers : c.triggers = b.triggers
  pauses : Pauses b c

/-- One turn has passed for the modifiers of a fighter, in every entry, and for nobody else. -/
structure Ticked (f : Fighter) (b c : Battle) : Prop where
  ticks : ∃ g, c.fighter? f.id = some g ∧ g.modifiers = f.modifiers.tick ∧
    ∀ id, g.modifiers.get? id = Modifier.Stack.entryAfter (f.modifiers.get? id) .tick
  others : ∀ id, id ≠ f.id → c.fighter? id = b.fighter? id

/-- What the turn that is started in `x` has cost: a turn of its fighter's modifiers, when it began
in `c`, and an evaluation of the triggers right after that; or nothing, if it begins for nobody. -/
inductive Spent (x b : Battle) : Prop
  | idle (hnobody : x.beginner? = none) (hpauses : Pauses x b) (htriggers : b.triggers = x.triggers)
  | begun {f : Fighter} {c : Battle} (hbeginner : x.beginner? = some f)
      (hbegin : beginTurn { x with phase := .turnStart } f = .ok c) (hticked : Ticked f x c)
      (hpauses : Pauses c b)
      (htriggers : b.triggers = (x.triggers.evaluate c.fighters.values (.whole x.turn)).2)

structure During (x b : Battle) : Prop where
  begun : x.beginner?.isSome = true
  turn : b.turn = x.turn
  index : b.index = x.index
  queue : x.queue <+: b.queue
  spent : Spent x b

/-- The turn that has been started in `x` is over, and a turn is started in `y`; the queue is that
of the round when its place was left. -/
inductive Follows (x : Battle) : List Initiative.Entry → Battle → Prop
  | skip {y : Battle} (hnobody : x.beginner? = none)
      (h : nextTurn { x with phase := .turnStart } = .ok y) : Follows x x.queue y
  | leave {d y : Battle} (hduring : During x d) (h : d.nextTurn = .ok y) : Follows x d.queue y

theorem Pauses.of_edits (h : ∀ id f, b.fighter? id = some f →
    ∃ g, c.fighter? id = some g ∧ f.modifiers.Edits g.modifiers) : Pauses b c := by
  intro id f hf
  obtain ⟨g, hg, hedits⟩ := h id f hf
  exact ⟨g, hg, hedits, fun _ _ => hedits.entry⟩

theorem Pauses.of_eq (h : c.fighters = b.fighters) : Pauses b c :=
  .of_edits fun id f hf => ⟨f, by rwa [fighter?, h], .refl⟩

theorem Pauses.trans (h : Pauses b c) (h' : Pauses c d) : Pauses b d := by
  refine .of_edits fun id f hf => ?_
  obtain ⟨g, hg, hedits, -⟩ := h id f hf
  obtain ⟨g', hg', hedits', -⟩ := h' id g hg
  exact ⟨g', hg', hedits.trans hedits'⟩

namespace Stays

theorem of_eq (hturn : c.turn = b.turn) (hindex : c.index = b.index) (hqueue : c.queue = b.queue)
    (htriggers : c.triggers = b.triggers) (hfighters : c.fighters = b.fighters) : Stays b c where
  turn := hturn
  index := hindex
  queue := hqueue ▸ List.prefix_rfl
  triggers := htriggers
  pauses := .of_eq hfighters

theorem refl (b : Battle) : Stays b b := .of_eq rfl rfl rfl rfl rfl

theorem trans (h : Stays b c) (h' : Stays c d) : Stays b d where
  turn := h'.turn.trans h.turn
  index := h'.index.trans h.index
  queue := h.queue.trans h'.queue
  triggers := h'.triggers.trans h.triggers
  pauses := h.pauses.trans h'.pauses

theorem checkEnd (h : b.checkEnd = .ok c) : Stays b c := by
  rcases checkEnd_cases h with ⟨rfl, -⟩ | ⟨-, -, phase, outcome, dice, log, notices, -, rfl⟩
  · exact .refl c
  · exact .of_eq rfl rfl rfl rfl rfl

end Stays

def Task.IsInner : Task → Prop
  | .dispatch _ | .executePending | .perform _ | .performAll _ | .queueDialog _ => True
  | _ => False

theorem Calls.isInner (h : Calls s t) (hs : s.2.IsInner) : t.2.IsInner := by
  cases h
  all_goals first
    | exact hs.elim
    | exact trivial

theorem Reaches.isInner (h : Reaches s t) (hs : s.2.IsInner) : t.2.IsInner := by
  induction h with
  | refl => exact hs
  | tail _ hcall ih => exact hcall.isInner ih

theorem Path.pauses (hb : b.fighters.Keyed) (hs : s.2.IsInner) (h : Path s b c) : Pauses b c := by
  refine .of_edits fun id f hf => ?_
  obtain ⟨g, hg, hchanges⟩ := h.after hb hf
  refine ⟨g, hg, ?_⟩
  clear hf hg
  induction hchanges with
  | refl => exact .refl
  | tail _ hchange ih =>
      obtain ⟨t, hreaches, hchange⟩ := hchange
      -- modifiers tick at the start of a turn only, which no inner task leads to
      have hinner := hreaches.isInner hs
      rcases hchange.footprint.2.2 with hedits | hstart | hclose
      · exact ih.trans hedits
      · rw [hstart] at hinner
        exact hinner.elim
      · rw [hclose] at hinner
        exact hinner.elim

theorem happen_turn (hsteps : Relation.ReflTransGen Happens b c) : c.turn = b.turn := by
  induction hsteps with
  | refl => rfl
  | tail _ hstep ih =>
      rcases happens_cases hstep with
        ⟨d, hd⟩ | ⟨d, queue, ⟨fighters, origins, buffsMade, log, rfl⟩, rfl⟩
      · rcases queueDialog_cases hd with ⟨-, notices, rfl⟩ | ⟨-, -, resume, notices, -, rfl⟩
        all_goals exact ih
      · exact ih

namespace Stays

theorem happen (hb : b.fighters.Keyed) (hs : s.2.IsInner) (hpath : Path s b c)
    (hsteps : Relation.ReflTransGen Happens b c) : Stays b c where
  turn := happen_turn hsteps
  index := (Onward.happen hsteps).index
  queue := (Onward.happen hsteps).queue
  triggers := (happen_leaves hsteps).2.1
  pauses := hpath.pauses hb hs

theorem perform (hb : b.fighters.Keyed) (h : Battle.perform b e = .ok c) : Stays b c :=
  happen (s := (b, .perform e)) hb trivial (.perform e h) (perform_happens e h)

theorem performAll (hb : b.fighters.Keyed) (h : Battle.performAll b es = .ok c) : Stays b c :=
  happen (s := (b, .performAll es)) hb trivial (.performAll es h) (performAll_happens es h)

theorem queueDialog {d : Dialog} (hb : b.fighters.Keyed) (h : b.queueDialog d = .ok c) :
    Stays b c :=
  happen (s := (b, .queueDialog d)) hb trivial (.beside (.queueDialog h)) (.single (.dialog h))

theorem runOrder {o : Order} (hb : b.fighters.Keyed) (ho : b.pending = some o)
    (hf : b.fighter? o.actorId = some f) (h : (b.enter .actionExecute).runOrder f o = .ok c) :
    Stays b c := by
  have hpath : Path (b, .executePending) (b.enter .actionExecute) c := .step (.order ho hf h)
  have hpauses : Pauses b c :=
    Path.pauses (s := (b, .executePending)) (b := b.enter .actionExecute) hb trivial hpath
  obtain ⟨fighters, dice, log, rfl⟩ := Acted.runOrder h
  exact ⟨rfl, rfl, List.prefix_rfl, rfl, hpauses⟩

end Stays

theorem Spent.pauses (h : Spent x b) (hpauses : Pauses b c) (htriggers : c.triggers = b.triggers) :
    Spent x c := by
  cases h with
  | idle hnobody hpaused hsame =>
      exact .idle hnobody (hpaused.trans hpauses) (htriggers.trans hsame)
  | begun hbeginner hbegin hticked hpaused hsame =>
      exact .begun hbeginner hbegin hticked (hpaused.trans hpauses) (htriggers.trans hsame)

theorem Spent.stays (h : Spent x b) (hstays : Stays b c) : Spent x c :=
  h.pauses hstays.pauses hstays.triggers

theorem During.stays (h : During x b) (hstays : Stays b c) : During x c where
  begun := h.begun
  turn := hstays.turn.trans h.turn
  index := hstays.index.trans h.index
  queue := h.queue.trans hstays.queue
  spent := h.spent.stays hstays

theorem nextTurn_leaves (h : b.nextTurn = .ok c) :
    c.fighters = b.fighters ∧ c.triggers = b.triggers := by
  rcases nextTurn_cases h with ⟨-, rfl⟩ | ⟨-, turn, queue, dice, -, ⟨-, rfl⟩ | ⟨-, hend⟩⟩
  · exact ⟨rfl, rfl⟩
  · exact ⟨rfl, rfl⟩
  · rcases checkEnd_cases hend with ⟨rfl, -⟩ | ⟨-, -, phase, outcome, dice, log, notices, -, rfl⟩
    · exact ⟨rfl, rfl⟩
    · exact ⟨rfl, rfl⟩

theorem eq_or_isOver_of_checkEnd (h : b.checkEnd = .ok c) : c = b ∨ c.isOver = true := by
  rcases checkEnd_cases h with ⟨rfl, -⟩ | ⟨-, -, phase, outcome, dice, log, notices, hphase, rfl⟩
  · exact .inl rfl
  · refine .inr ?_
    rcases hphase with rfl | rfl
    all_goals rfl

theorem Follows.spent (h : Follows x q y) : Spent x y := by
  cases h with
  | skip hnobody h =>
      obtain ⟨hfighters, htriggers⟩ := nextTurn_leaves h
      exact .idle hnobody (.of_eq hfighters) htriggers
  | leave hduring h =>
      obtain ⟨hfighters, htriggers⟩ := nextTurn_leaves h
      exact hduring.spent.pauses (.of_eq hfighters) htriggers

/-- A turn is started after the last one, the first turn of all in the first place of the first
round. -/
def Comes : Option Battle → Battle → Prop
  | none, y => y.turn = 1 ∧ y.index = 0
  | some x, y => ∃ q, Follows x q y

def Rests (x b : Battle) : Prop := During x b ∨ ∃ q y, Follows x q y ∧ Stays y b

theorem Rests.stays (h : Rests x b) (hstays : Stays b c) : Rests x c := by
  rcases h with hduring | ⟨q, y, hfollows, hrest⟩
  · exact .inl (hduring.stays hstays)
  · exact .inr ⟨q, y, hfollows, hrest.trans hstays⟩

theorem Rests.spent (h : Rests x b) : Spent x b := by
  rcases h with hduring | ⟨q, y, hfollows, hrest⟩
  · exact hduring.spent
  · exact hfollows.spent.stays hrest

inductive Holds : Option Battle → Battle → Prop
  | fresh {b : Battle} (hstage : b.stage = .start) : Holds none b
  | ended {last : Option Battle} {b : Battle} (hover : b.isOver = true)
      (hlast : ∀ x, last = some x → Rests x b) : Holds last b
  | during {x b : Battle} (hstage : b.stage ≠ .start) (h : During x b) : Holds (some x) b

theorem Rests.holds (h : Rests x b) (hover : b.isOver = true) : Holds (some x) b := by
  refine .ended hover fun y hy => ?_
  cases hy
  exact h

theorem During.holds (h : During x b) (hstart : b.phase ≠ .start) (hdialog : b.phase ≠ .dialog) :
    Holds (some x) b := by
  refine .during ?_ h
  rwa [stage_of_ne hdialog]

def Sequel (last : Option Battle) (b : Battle) : Prop :=
  b.isRunning = true ∧ Comes last b ∨ b.isRunning = false ∧ Holds last b

namespace Holds

theorem rests (h : Holds last b) : ∀ x, last = some x → Rests x b := by
  intro x hx
  cases h with
  | fresh => cases hx
  | ended _ hlast => exact hlast x hx
  | during _ h =>
      cases hx
      exact .inl h

theorem exists_during (h : Holds last b) (hstage : b.stage ≠ .start) (hover : b.isOver = false) :
    ∃ x, last = some x ∧ During x b := by
  cases h with
  | fresh hstart => exact absurd hstart hstage
  | ended hends _ => simp [hover] at hends
  | @during x _ _ h => exact ⟨x, rfl, h⟩

theorem stays (h : Holds last b) (hstays : Stays b c) (hstage : c.stage = b.stage)
    (hover : c.isOver = b.isOver) : Holds last c := by
  cases h with
  | fresh hstart => exact .fresh (hstage.trans hstart)
  | ended hends hlast => exact .ended (hover.trans hends) fun x hx => (hlast x hx).stays hstays
  | during hne h => exact .during (hstage ▸ hne) (h.stays hstays)

theorem checkEnd (h : Holds last b) (hok : b.checkEnd = .ok c) : Holds last c := by
  have hstays := Stays.checkEnd hok
  rcases eq_or_isOver_of_checkEnd hok with rfl | hover
  · exact h
  · exact .ended hover fun x hx => (h.rests x hx).stays hstays

end Holds

theorem isRunning_or_isOver (hruns : b.isRunning = true) (hok : b.nextTurn = .ok c) :
    c.isRunning = true ∨ c.isOver = true := by
  rcases nextTurn_cases hok with ⟨-, rfl⟩ | ⟨-, turn, queue, dice, -, ⟨-, rfl⟩ | ⟨-, hend⟩⟩
  · exact .inl hruns
  · exact .inl hruns
  · rcases eq_or_isOver_of_checkEnd hend with rfl | hover
    · exact .inl hruns
    · exact .inr hover

theorem Follows.sequel (h : Follows x q c) (hruns : b.isRunning = true)
    (hok : b.nextTurn = .ok c) : Sequel (some x) c := by
  rcases isRunning_or_isOver hruns hok with hgoes | hover
  · exact .inl ⟨hgoes, q, h⟩
  · exact .inr ⟨not_isRunning_of_isOver hover, Rests.holds (.inr ⟨q, c, h, .refl c⟩) hover⟩

namespace During

theorem nextTurn (h : During x b) (hruns : b.isRunning = true) (hok : b.nextTurn = .ok c) :
    Sequel (some x) c :=
  Follows.sequel (.leave h hok) hruns hok

theorem endTurn (h : During x b) (hok : b.endTurn = .ok c) : Sequel (some x) c := by
  have hentered : During x (b.enter .turnEnd) := h.stays (.of_eq rfl rfl rfl rfl rfl)
  exact hentered.nextTurn rfl hok

theorem sequel_of_isOver (h : During x b) (hover : b.isOver = true) : Sequel (some x) b :=
  .inr ⟨not_isRunning_of_isOver hover, Rests.holds (.inl h) hover⟩

theorem executePending {o : Order} (h : During x b) (hb : b.fighters.Keyed)
    (ho : b.pending = some o) (hok : b.executePending = .ok c) : Sequel (some x) c := by
  simp only [Battle.executePending, ho] at hok
  split at hok
  next =>
    have hnobody : During x { b.enter .actionExecute with pending := none } :=
      h.stays (.of_eq rfl rfl rfl rfl rfl)
    exact hnobody.endTurn hok
  next f hf =>
    simp only [Fallible.bind_eq_ok] at hok
    obtain ⟨d, hrun, e, hend, hok⟩ := hok
    have hd : During x { d with pending := none } :=
      (h.stays (.runOrder hb ho hf hrun)).stays (.of_eq rfl rfl rfl rfl rfl)
    have he : During x e := hd.stays (.checkEnd hend)
    split at hok
    next => exact he.endTurn hok
    next hphase =>
      cases hok
      obtain ⟨fighters, dice, log, rfl⟩ := Acted.runOrder hrun
      rcases eq_or_isOver_of_checkEnd hend with rfl | hover
      · exact absurd rfl hphase
      · exact he.sequel_of_isOver hover

theorem dispatch (h : During x b) (hb : b.fighters.Keyed) (hok : b.dispatch g = .ok c) :
    Sequel (some x) c := by
  rcases dispatch_cases hok with ⟨-, hend⟩ | ⟨-, -, rfl⟩ | ⟨-, -, o, dice, hexecute⟩
  · exact h.endTurn hend
  · have hwaits : During x (b.enter .actionSelect) := h.stays (.of_eq rfl rfl rfl rfl rfl)
    exact .inr ⟨rfl, hwaits.holds (by rintro ⟨⟩) (by rintro ⟨⟩)⟩
  · have hordered : During x { b with dice, pending := some o } :=
      h.stays (.of_eq rfl rfl rfl rfl rfl)
    exact hordered.executePending hb rfl hexecute

end During

theorem beginTurn_ticked (h : beginTurn { b with phase := .turnStart } f = .ok c) :
    Ticked f b c := by
  obtain ⟨g, log, hg, rfl⟩ := beginTurn_eq_ok h
  obtain ⟨stats, -, rfl⟩ := refreshWith_eq_ok.1 hg
  refine ⟨⟨_, by rw [fighter?, setFighter, Table.get?_insert]; exact if_pos rfl, rfl, fun id => ?_⟩,
    fun id hid => ?_⟩
  · exact (Modifier.Stack.get?_tick f.modifiers id).trans (Modifier.Stack.ticked_eq_entryAfter _)
  · rw [fighter?, setFighter, Table.get?_insert]
    exact if_neg hid

theorem Begun.during (hb : b.fighters.Keyed) (h : Begun b f d) : During b d := by
  obtain ⟨hcurrent, halive, c, hbegin, htriggers⟩ := h
  have hbeginner : b.beginner? = some f := by
    rw [beginner?, hcurrent, Option.filter_some, halive, if_pos rfl]
  have hc : c.fighters.Keyed :=
    (Step.begin hcurrent halive hbegin).keyed (b := { b with phase := .turnStart }) hb
  have hfires := htriggers
  simp only [checkTriggers, Fallible.bind_eq_ok] at hfires
  obtain ⟨fired, -, hfires⟩ := hfires
  have hstays := Stays.performAll
    (b := { c with triggers := (c.triggers.evaluate c.fighters.values (.whole c.turn)).2 }) hc
    hfires
  have hticked : Ticked f b c := beginTurn_ticked hbegin
  obtain ⟨fighters, dice, log, rfl⟩ := Acted.beginTurn hbegin
  exact ⟨by rw [hbeginner]; rfl, hstays.turn, hstays.index, hstays.queue,
    .begun hbeginner hbegin hticked hstays.pauses hstays.triggers⟩

/-- After the start of a turn the next turn is started, or the battle stands still in this one. -/
theorem startTurn_sequel (hs : Silent ts b) (hb : b.fighters.Keyed) (hok : b.startTurn = .ok c) :
    Sequel (some b) c := by
  rcases startTurn_cases hok with
    ⟨hnobody, hnext⟩ | ⟨f, c', d, e, hcurrent, halive, hbegin, htriggers, hend, hlast⟩
  · exact Follows.sequel (b := { b with phase := .turnStart }) (.skip hnobody hnext) rfl hnext
  · have hbegun : Begun b f d := ⟨hcurrent, halive, c', hbegin, htriggers⟩
    have hd : During b d := hbegun.during hb
    have he : During b e := hd.stays (.checkEnd hend)
    -- the triggers may have called enemies, so the roster is that of the end of the path
    have hkeyed : e.fighters.Keyed := by
      have hpath := (Path.step (.begin hcurrent halive hbegin)).trans
        ((Path.checkTriggers hcurrent halive hbegin htriggers).trans (Path.beside (.checkEnd hend)))
      exact Path.keyed (b := { b with phase := .turnStart }) hb hpath
    rcases hlast with ⟨hstops, rfl⟩ | ⟨-, hdispatch⟩
    · have hnotified : During b e.notify := he.stays (.of_eq rfl rfl rfl rfl rfl)
      rcases hs.undecided hbegun hend with ⟨rfl, -, hphase⟩ | hdecided
      · have hover : e.isOver = false := by
          rcases hphase with heq | heq
          all_goals simp [isOver, heq, Phase.isTerminal]
        have hdialog : e.phase = .dialog := by simpa [hover] using hstops
        refine .inr ⟨by simp [isRunning, notify, hdialog, Phase.isWaiting], .during ?_ hnotified⟩
        have hstage : e.notify.stage = .turnStart := (hs.begun hbegun).1.stage
        simp [hstage]
      · have hover : e.notify.isOver = true := hdecided.isOver
        exact hnotified.sequel_of_isOver hover
    · exact he.dispatch hkeyed hdispatch

def Placed (last : Option Battle) : Call → Prop
  | (b, .command _) => Holds last b
  | (b, .attemptFlee) => ∃ x, last = some x ∧ During x b
  | (b, .afterDialog) => Holds last b
  | (b, .resumePhase) => Holds last b
  | _ => True

theorem Holds.exists_during_of_phase {p : Phase} (h : Holds last b) (hphase : b.phase = p)
    (hp : p ≠ .start ∧ p ≠ .dialog) (hover : p.isTerminal = false) :
    ∃ x, last = some x ∧ During x b := by
  subst hphase
  refine h.exists_during ?_ hover
  rw [stage_of_ne hp.2]
  exact hp.1

theorem Holds.resumed (h : Holds last b) (hphase : b.phase = .dialog)
    (hresume : b.resume.headD .start = .turnStart) : ∃ x, last = some x ∧ During x b.resumed := by
  have hstage : b.stage = .turnStart := (stage_of_dialog hphase).trans hresume
  obtain ⟨x, hx, hduring⟩ := h.exists_during (by simp [hstage])
    (by simp [isOver, hphase, Phase.isTerminal])
  exact ⟨x, hx, hduring.stays (.of_eq rfl rfl rfl rfl rfl)⟩

theorem Holds.answered {rest : List Dialog} {e : Event} (h : Holds last b) (hp : Paused ts b)
    (hb : b.fighters.Keyed) (hdialogs : b.dialogs ≠ [])
    (hperform : Battle.perform { b with dialogs := rest } e = .ok x) (hend : x.checkEnd = .ok y) :
    Holds last y := by
  have hopen := hp.dialog_or_isOver hdialogs
  have hhappen := perform_happens e hperform
  have hrest : Open ts b.stage { b with dialogs := rest } :=
    ⟨hp.standing.setDialogs hopen rest, rfl⟩
  have hstage : x.stage = b.stage := (hrest.happen hp.isOpen hhappen).stage
  have hphase : x.phase = b.phase := happen_keeps (b := { b with dialogs := rest }) hopen hhappen
  have hstays : Stays { b with dialogs := rest } x := .perform hb hperform
  have hset : Stays b { b with dialogs := rest } := .of_eq rfl rfl rfl rfl rfl
  have hx : Holds last x := h.stays (hset.trans hstays) hstage (by rw [isOver, hphase, isOver])
  exact hx.checkEnd hend

theorem Placed.calls (h : Placed last s) (hdue : Due ts s) (hb : s.1.fighters.Keyed)
    (hcall : Calls s t) : Placed last t := by
  cases hcall with
  | @flee b o hphase hkind hactor =>
      obtain ⟨x, hx, hduring⟩ := Holds.exists_during_of_phase h hphase (by decide) rfl
      exact ⟨x, hx, hduring.stays (.of_eq rfl rfl rfl rfl rfl)⟩
  | dismiss => exact Holds.stays h (.of_eq rfl rfl rfl rfl rfl) rfl rfl
  | choose => exact Holds.stays h (.of_eq rfl rfl rfl rfl rfl) rfl rfl
  | answered hdialogs _ _ hdone hend =>
      exact Holds.answered h hdue.2 hb (by simp [hdialogs]) hdone hend
  | resume => exact h
  | _ => trivial

theorem Placed.sequel (h : Placed last s) (hdue : Due ts s) (hb : s.1.fighters.Keyed)
    (hne : s.2 ≠ .turns) (hcall : Calls s (m, .turns)) : Sequel last m := by
  cases hcall with
  | start hqueue =>
      obtain ⟨dice, -, rfl⟩ := roll_eq_ok hqueue
      have hphase := hdue.1 rfl
      refine .inl ⟨rfl, ?_⟩
      -- a battle that is about to start has not started a turn before
      cases last with
      | none => exact ⟨rfl, rfl⟩
      | some x =>
          cases h with
          | ended hover _ => simp [isOver, hphase, Phase.isTerminal] at hover
          | during hstage _ =>
              rw [stage_of_ne (by simp [hphase])] at hstage
              exact absurd hphase hstage
  | @defended b c o hphase hkind hactor hdone =>
      obtain ⟨x, rfl, hduring⟩ := Holds.exists_during_of_phase h hphase (by decide) rfl
      have hordered : During x { b with pending := some o } :=
        hduring.stays (.of_eq rfl rfl rfl rfl rfl)
      exact hordered.executePending hb rfl hdone
  | @caught b c _ _ _ _ hroll _ hend =>
      obtain ⟨x, rfl, hduring⟩ := h
      obtain ⟨dice, -, rfl⟩ := roll_eq_ok hroll
      have hfailed : During x (say { b with dice, pending := none } "Failed to escape!") :=
        hduring.stays (.of_eq rfl rfl rfl rfl rfl)
      exact hfailed.endTurn hend
  | @targeted b c o ids hpending hphase hdone =>
      obtain ⟨x, rfl, hduring⟩ := Holds.exists_during_of_phase h hphase (by decide) rfl
      have hordered : During x { b with pending := some { o with targets := ids } } :=
        hduring.stays (.of_eq rfl rfl rfl rfl rfl)
      exact hordered.executePending hb rfl hdone
  | @resumedTurn b c f hresume hcurrent hdone =>
      obtain ⟨x, rfl, hresumed⟩ := Holds.resumed h hdue.2.1 hresume
      exact hresumed.dispatch hb hdone
  | @resumedNext b c hresume hcurrent hnext =>
      obtain ⟨x, rfl, hresumed⟩ := Holds.resumed h hdue.2.1 hresume
      exact hresumed.nextTurn rfl hnext
  | turned => exact absurd rfl hne

theorem Placed.reaches (h : Placed last s) (hdue : Due ts s) (hb : s.1.fighters.Keyed)
    (hreaches : Reaches s t) : Placed last t := by
  induction hreaches with
  | refl => exact h
  | tail hbefore hcall ih =>
      exact ih.calls (hdue.reaches hbefore) (Path.keyed hb (Reaches.path hbefore)) hcall

theorem Placed.opens (h : Placed last s) (hdue : Due ts s) (hb : s.1.fighters.Keyed)
    (hopens : Opens s m) : Sequel last m := by
  obtain ⟨t, hreaches, hne, hcall⟩ := hopens
  exact (h.reaches hdue hb hreaches).sequel (hdue.reaches hreaches)
    (Path.keyed hb (Reaches.path hreaches)) hne hcall

theorem During.attemptFlee (h : During x b) (hok : b.attemptFlee = .ok c)
    (hnone : ∀ m, ¬ Opens (b, .attemptFlee) m) : Holds (some x) c := by
  simp only [Battle.attemptFlee, arithmetic, Fallible.bind_eq_ok, Fallible.leaving_eq_ok,
    Fallible.mapError_eq_ok, Prod.exists] at hok
  obtain ⟨chance, hchance, o, d, hroll, hok⟩ := hok
  split at hok
  next =>
    cases hok
    obtain ⟨dice, -, rfl⟩ := roll_eq_ok hroll
    exact Rests.holds (.inl (h.stays (.of_eq rfl rfl rfl rfl rfl))) rfl
  next hfailed =>
    obtain ⟨e, hend, -⟩ := Fallible.bind_eq_ok.1 hok
    exact absurd ⟨_, .refl, by simp, .caught hchance hroll (by simpa using hfailed) hend⟩ (hnone e)

theorem Holds.resumePhase (h : Holds last b) (hs : Standing ts b) (hphase : b.phase = .dialog)
    (hok : b.resumePhase = .ok c) (hnone : ∀ m, ¬ Opens (b, .resumePhase) m) : Holds last c := by
  rcases resumePhase_cases hok with ⟨-, rfl⟩ | ⟨hresume, d, -, hgoes⟩
  · obtain ⟨p, hp, hresume⟩ := hs.interrupted hphase
    have hopen : p ≠ .dialog ∧ p.isTerminal = false := by
      revert hp
      cases p <;> simp [Phase.interruptible, Phase.isTerminal]
    refine h.stays (.of_eq rfl rfl rfl rfl rfl) ?_ ?_
    · rw [stage_of_dialog hphase, stage_of_ne]
      · rfl
      · simpa [notify, hresume] using hopen.1
    · change (b.resume.headD .start).isTerminal = b.phase.isTerminal
      rw [hresume, hphase]
      exact hopen.2
  · rcases hgoes with ⟨hcurrent, hnext⟩ | ⟨f, hcurrent, hdispatch⟩
    · exact absurd ⟨_, .refl, by simp, .resumedNext hresume hcurrent hnext⟩ (hnone d)
    · exact absurd ⟨_, .refl, by simp, .resumedTurn hresume hcurrent hdispatch⟩ (hnone d)

theorem Holds.afterDialog (h : Holds last b) (hs : Standing ts b)
    (hopen : b.phase = .dialog ∨ b.isOver = true) (hok : b.afterDialog = .ok c)
    (hnone : ∀ m, ¬ Opens (b, .afterDialog) m) : Holds last c := by
  rcases afterDialog_cases hok with ⟨-, rfl⟩ | ⟨hdialogs, hover, hresume⟩
  · exact h.stays (.of_eq rfl rfl rfl rfl rfl) rfl rfl
  · refine h.resumePhase hs (hopen.resolve_right (by simp [hover])) hresume fun m hm => ?_
    exact hnone m (hm.of_calls (.resume hdialogs hover))

theorem Holds.dropDialog {rest : List Dialog} (h : Holds last b) (hp : Paused ts b)
    (hdialogs : b.dialogs ≠ []) (hok : { b with dialogs := rest }.afterDialog = .ok c)
    (hnone : ∀ m, ¬ Opens ({ b with dialogs := rest }, .afterDialog) m) : Holds last c := by
  have hopen := hp.dialog_or_isOver hdialogs
  have hrest : Holds last { b with dialogs := rest } :=
    h.stays (.of_eq rfl rfl rfl rfl rfl) rfl rfl
  exact hrest.afterDialog (hp.standing.setDialogs hopen rest) hopen hok hnone

theorem Holds.selectAction {o : Order} (h : Holds last b) (hok : b.selectAction o = .ok c)
    (hnone : ∀ m, ¬ Opens (b, .command (.selectAction o)) m) : Holds last c := by
  rcases selectAction_cases hok with rfl | ⟨hphase, hactor, hgoes⟩
  · exact h
  · obtain ⟨x, rfl, hduring⟩ := h.exists_during_of_phase hphase (by decide) rfl
    have hordered : During x { b with pending := some o } :=
      hduring.stays (.of_eq rfl rfl rfl rfl rfl)
    rcases hgoes with ⟨hkind, d, hdone, -⟩ | ⟨hkind, hflee⟩ | ⟨-, rfl⟩
    · exact absurd ⟨_, .refl, by simp, .defended hphase hkind hactor hdone⟩ (hnone d)
    · refine hordered.attemptFlee hflee fun m hm => ?_
      exact hnone m (hm.of_calls (.flee hphase hkind hactor))
    · have hwaits : During x (enter { b with pending := some o } .targetSelect) :=
        hordered.stays (.of_eq rfl rfl rfl rfl rfl)
      exact hwaits.holds (by rintro ⟨⟩) (by rintro ⟨⟩)

theorem Holds.apply (h : Holds last b) (hp : Paused ts b) (hb : b.fighters.Keyed)
    (hplay : k.IsPlay) (hok : k.apply b = .ok c) (hnone : ∀ m, ¬ Opens (b, .command k) m) :
    Holds last c := by
  cases k with
  | start =>
      obtain ⟨⟨queue, d⟩, hqueue, -⟩ := Fallible.bind_eq_ok.1 hok
      exact absurd ⟨_, .refl, by simp, .start hqueue⟩ (hnone _)
  | selectAction o => exact h.selectAction hok hnone
  | selectTargets ids =>
      rcases selectTargets_cases hok with rfl | ⟨o, d, hpending, hphase, hdone, -⟩
      · exact h
      · exact absurd ⟨_, .refl, by simp, .targeted hpending hphase hdone⟩ (hnone d)
  | cancelTargets =>
      cases hok
      rcases cancelTargets_cases b with heq | ⟨hphase, heq⟩
      · rwa [heq]
      · obtain ⟨x, rfl, hduring⟩ := h.exists_during_of_phase hphase (by decide) rfl
        have hwaits : During x (enter { b with pending := none } .actionSelect) :=
          hduring.stays (.of_eq rfl rfl rfl rfl rfl)
        rw [heq]
        exact hwaits.holds (by rintro ⟨⟩) (by rintro ⟨⟩)
  | queueDialog d =>
      have hopen : Open ts b.stage b := ⟨hp.standing, rfl⟩
      have hstage := (hopen.queueDialog hp.isOpen hok).stage
      refine h.stays (.queueDialog hb hok) hstage ?_
      rcases queueDialog_cases hok with ⟨-, notices, rfl⟩ | ⟨-, hover, resume, notices, -, rfl⟩
      · rfl
      · rw [hover]
        rfl
  | dismissDialog =>
      rcases dismissDialog_cases hok with rfl | ⟨d, rest, hdialogs, hplain, hafter⟩
      · exact h
      · refine h.dropDialog hp (by simp [hdialogs]) hafter fun m hm => ?_
        exact hnone m (hm.of_calls (.dismiss hdialogs hplain))
  | chooseOption id =>
      rcases chooseOption_cases hok with rfl | ⟨d, rest, o, hdialogs, hoption, hgoes⟩
      · exact h
      · rcases hgoes with ⟨hevent, hafter⟩ | ⟨e, x, y, hevent, hdone, hend, hafter⟩
        · refine h.dropDialog hp (by simp [hdialogs]) hafter fun m hm => ?_
          exact hnone m (hm.of_calls (.choose hdialogs hoption hevent))
        · obtain ⟨hy, hopen⟩ := hp.answered (by simp [hdialogs]) hdone hend
          have hholds := h.answered hp hb (by simp [hdialogs]) hdone hend
          refine hholds.afterDialog hy hopen hafter fun m hm => ?_
          exact hnone m (hm.of_calls (.answered hdialogs hoption hevent hdone hend))
  | perform e => exact hplay.elim
  | close => exact hplay.elim

end Skirmish.Battle

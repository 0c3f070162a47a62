import Mathlib.Logic.Relation
import Skirmish.Battle.Command
import Skirmish.Proofs.Fallible

namespace Skirmish.Battle

inductive Command where
  | start
  | selectAction (order : Order)
  | selectTargets (ids : List String)
  | cancelTargets
  | queueDialog (dialog : Dialog)
  | dismissDialog
  | chooseOption (id : String)
  | perform (event : Event)
  | close

def Command.apply (b : Battle) : Command → Result Battle
  | start => b.start
  | selectAction o => b.selectAction o
  | selectTargets ids => b.selectTargets ids
  | cancelTargets => .ok b.cancelTargets
  | queueDialog d => b.queueDialog d
  | dismissDialog => b.dismissDialog
  | chooseOption id => b.chooseOption id
  | perform e => Battle.perform b e
  | close => b.close

/-- Follows commands as long as each of them comes to an end. -/
def follow (b : Battle) : List Command → Result Battle
  | [] => .ok b
  | c :: cs => do follow (← c.apply b) cs

/-- The battle that a command leaves, be it that it fails on the way. -/
def Command.leaves (b : Battle) (k : Command) : Battle :=
  match k.apply b with
  | .ok c => c
  | .error h => h.left

/-- The battle after commands; those that fail are followed by the next ones all the same. -/
def after (b : Battle) (ks : List Command) : Battle := ks.foldl Command.leaves b

variable {b b' : Battle}

theorem leaves_of_eq_ok {k : Command} (h : k.apply b = .ok b') : k.leaves b = b' := by
  rw [Command.leaves, h]

theorem leaves_of_eq_error {k : Command} {halt : Halt Error Battle}
    (h : k.apply b = .error halt) : k.leaves b = halt.left := by
  rw [Command.leaves, h]

theorem after_concat (b : Battle) (ks : List Command) (k : Command) :
    b.after (ks ++ [k]) = k.leaves (b.after ks) := by
  rw [after, after, List.foldl_append, List.foldl_cons, List.foldl_nil]

theorem after_of_follow {ks : List Command} (h : b.follow ks = .ok b') : b.after ks = b' := by
  induction ks generalizing b with
  | nil => exact Except.ok.inj h
  | cons k ks ih =>
      obtain ⟨c, hc, h⟩ := Fallible.bind_eq_ok.1 h
      rw [after, List.foldl_cons, leaves_of_eq_ok hc]
      exact ih h

theorem apply_of_follow {pre post : List Command} {k : Command}
    (h : b.follow (pre ++ k :: post) = .ok b') : ∃ c, k.apply (b.after pre) = .ok c := by
  induction pre generalizing b with
  | nil =>
      obtain ⟨c, hc, -⟩ := Fallible.bind_eq_ok.1 h
      exact ⟨c, hc⟩
  | cons k' pre ih =>
      obtain ⟨c, hc, h⟩ := Fallible.bind_eq_ok.1 h
      rw [after, List.foldl_cons, leaves_of_eq_ok hc]
      exact ih h

theorem rollOr_eq_ok {ε α : Type} {r : Roll ε α} {halt : ε → Battle → Halt Error Battle} {a : α}
    (h : b.rollOr r halt = .ok (a, b')) :
    ∃ dice, (r.run).run b.dice = (.ok a, dice) ∧ b' = { b with dice } := by
  simp only [rollOr] at h
  split at h
  next a' dice hrun =>
    obtain ⟨rfl, rfl⟩ : a' = a ∧ { b with dice } = b' := by simpa using h
    exact ⟨dice, hrun, rfl⟩
  next => cases h

theorem rollOr_ends {ε α : Type} {r : Roll ε α} {halt : ε → Battle → Halt Error Battle}
    {P : Battle → Prop} {Q : α × Battle → Prop}
    (hfail : ∀ e dice, (r.run).run b.dice = (.error e, dice) → P (halt e { b with dice }).left)
    (hdone : ∀ a dice, (r.run).run b.dice = (.ok a, dice) → Q (a, { b with dice })) :
    Fallible.Ends P Q (b.rollOr r halt) := by
  rw [rollOr]
  split
  next a dice hrun => exact hdone a dice hrun
  next e dice hrun => exact hfail e dice hrun

theorem roll_eq_ok {ε α : Type} {r : Roll ε α} {wrap : ε → Error} {a : α}
    (h : b.roll r wrap = .ok (a, b')) :
    ∃ dice, (r.run).run b.dice = (.ok a, dice) ∧ b' = { b with dice } :=
  rollOr_eq_ok h

theorem run_eq_ok : b.run = .ok b' ↔ b.turns = some (.ok b') := by
  cases h : b.turns with
  | none => simp [run, h]
  | some r => simp [run, h]

theorem not_isRunning_of_isOver (h : b.isOver = true) : b.isRunning = false := by
  have hterminal : b.phase.isTerminal = true := h
  simp [isRunning, hterminal]

theorem run_of_waiting (h : b.isRunning = false) : b.run = .ok b := by
  rw [run_eq_ok, turns, h]
  rfl

theorem turns_of_startTurn {c : Battle} (hruns : b.isRunning = true) (hturn : b.startTurn = .ok c) :
    b.turns = c.turns := by
  rw [turns, if_pos hruns, hturn]

theorem run_eq_ok_of_running (h : b.isRunning = true) :
    b.run = .ok b' ↔ ∃ c, b.startTurn = .ok c ∧ c.run = .ok b' := by
  simp only [run_eq_ok]
  constructor
  · intro hturns
    rw [turns, if_pos h] at hturns
    split at hturns
    next => cases hturns
    next c hc => exact ⟨c, hc, hturns⟩
  · rintro ⟨c, hc, hturns⟩
    rw [turns_of_startTurn h hc, hturns]

theorem run_of_startTurn_error {halt : Halt Error Battle} (hruns : b.isRunning = true)
    (hturn : b.startTurn = .error halt) : b.run = .error halt := by
  rw [run, turns, if_pos hruns, hturn]
  rfl

theorem run_failsWith {c : Battle} {e : Error} (hruns : b.isRunning = true)
    (hturn : b.startTurn = .ok c) (h : Fallible.FailsWith c.run e) :
    Fallible.FailsWith b.run e := by
  obtain ⟨left, h⟩ := h
  rw [run] at h
  rw [run, turns_of_startTurn hruns hturn]
  cases hturns : c.turns with
  | none =>
      rw [hturns] at h
      cases h
      exact ⟨b, rfl⟩
  | some r =>
      rw [hturns] at h
      exact ⟨left, h⟩

/-- What every turn keeps lasts until a command is needed. -/
theorem run_induction {P : Battle → Prop}
    (hstep : ∀ b b', P b → b.isRunning = true → b.startTurn = .ok b' → P b')
    (h : b.run = .ok b') (hb : P b) : P b' ∧ b'.isRunning = false := by
  have hturns := turns.partial_correctness
    (motive := fun b r => ∀ b', r = .ok b' → P b → P b' ∧ b'.isRunning = false)
  refine hturns ?_ b _ (run_eq_ok.1 h) b' rfl hb
  intro turns ih b r hr b' hr' hb
  split at hr
  next hrunning =>
    split at hr
    next =>
      subst hr'
      cases hr
    next c hc => exact ih c r hr b' hr' (hstep b c hb hrunning hc)
  next hrunning =>
    obtain rfl : b = b' := by simpa [hr'] using hr
    exact ⟨hb, by simpa using hrunning⟩

/-- Takes turns as `run` does, but only so many of them. -/
def runWithin (b : Battle) : Nat → Result Battle
  | 0 => if b.isRunning then .error ⟨.turnLimit, b⟩ else .ok b
  | n + 1 => if b.isRunning then do runWithin (← b.startTurn) n else .ok b

theorem run_of_runWithin {n : Nat} (h : b.runWithin n = .ok b') : b.run = .ok b' := by
  rw [run_eq_ok]
  induction n generalizing b with
  | zero =>
      simp only [runWithin] at h
      split at h
      next => cases h
      next hwaits => rw [turns, if_neg hwaits, h]
  | succ n ih =>
      simp only [runWithin] at h
      split at h
      next hruns =>
        obtain ⟨c, hstart, h⟩ := Fallible.bind_eq_ok.1 h
        rw [turns, if_pos hruns, hstart]
        exact ih h
      next hwaits => rw [turns, if_neg hwaits, h]

def startWithin (b : Battle) (n : Nat) : Result Battle := do
  let (queue, b) ← b.rollQueue
  runWithin { b with queue, turn := 1, index := 0, phase := .turnStart } n

theorem start_of_startWithin {n : Nat} (h : b.startWithin n = .ok b') : b.start = .ok b' := by
  obtain ⟨⟨queue, c⟩, hroll, h⟩ := Fallible.bind_eq_ok.1 h
  exact Fallible.bind_eq_ok.2 ⟨(queue, c), hroll, run_of_runWithin h⟩

def turned (f : Fighter) : Fighter := { f with isDefending := false, modifiers := f.modifiers.tick }

theorem beginTurn_eq_ok {f : Fighter} (h : b.beginTurn f = .ok b') :
    ∃ g log, refresh b.rules (turned f) = .ok g ∧ b' = { b.setFighter g with log } := by
  simp only [beginTurn] at h
  split at h
  all_goals
    obtain ⟨g, hg, h⟩ := Fallible.bind_eq_ok.1 h
    cases h
    exact ⟨g, _, Fallible.leaving_eq_ok.1 hg, rfl⟩

theorem current?_eq_some {f : Fighter} (h : b.current? = some f) :
    ∃ id, b.fighter? id = some f := by
  obtain ⟨e, -, he⟩ := Option.bind_eq_some_iff.1 h
  exact ⟨e.id, he⟩

theorem target?_eq_some {target : Option String} {f : Fighter} (h : b.target? target = some f) :
    ∃ id, b.fighter? id = some f := by
  cases target with
  | none => exact current?_eq_some h
  | some id => exact ⟨id, h⟩

theorem living?_eq_some {target : Option String} {f : Fighter} (h : b.living? target = some f) :
    ∃ id, b.fighter? id = some f :=
  target?_eq_some (Option.filter_eq_some_iff.1 h).1

theorem named?_eq_some {target : Option String} {f : Fighter} (h : b.named? target = some f) :
    ∃ id, b.fighter? id = some f := by
  simp only [named?] at h
  split at h
  · cases h
  · cases h
  next id _ => exact ⟨id, h⟩

theorem withFighter_eq_ok {f? : Option Fighter} {step : Fighter → Result Battle}
    (h : b.withFighter f? step = .ok b') :
    b' = b ∨ ∃ f, f? = some f ∧ step f = .ok b' := by
  cases f? with
  | none => exact .inl (by simpa [withFighter, eq_comm] using h)
  | some f => exact .inr ⟨f, rfl, h⟩

inductive Happens (b : Battle) : Battle → Prop
  | dialog {b' : Battle} {d : Dialog} (h : b.queueDialog d = .ok b') : Happens b b'
  | spawn {b' : Battle} {e : Enemy} (h : b.spawn e = .ok b') : Happens b b'
  | buff {b' : Battle} {id stat : String} {value : Quantity} {duration : Option Int} {f : Fighter}
      (hf : b.fighter? id = some f) (h : b.scriptBuff stat value duration f = .ok b') :
      Happens b b'
  | heal {b' : Battle} {id : String} {amount : Quantity} {f : Fighter}
      (hf : b.fighter? id = some f) (h : b.scriptHeal amount f = .ok b') : Happens b b'
  | damage {b' : Battle} {id : String} {amount : Quantity} {f : Fighter}
      (hf : b.fighter? id = some f) (h : b.scriptDamage amount f = .ok b') : Happens b b'
  | flee {id : String} {f : Fighter} (hf : b.fighter? id = some f) : Happens b (b.scriptFlee f)
  | transform {b' : Battle} {id : String} {f : Fighter} {e : Enemy}
      (hf : b.fighter? id = some f) (h : b.transform f e = .ok b') : Happens b b'

theorem scriptTransform_happens {enemyId : String} {target : Option String}
    (h : b.scriptTransform enemyId target = .ok b') : Relation.ReflTransGen Happens b b' := by
  simp only [scriptTransform] at h
  split at h
  next e f _ htarget =>
    obtain ⟨id, hid⟩ := target?_eq_some htarget
    split at h
    · cases h
      exact .refl
    · exact .single (.transform hid h)
  next =>
    cases h
    exact .refl

mutual

theorem perform_happens {b b' : Battle} :
    ∀ e : Event, perform b e = .ok b' → Relation.ReflTransGen Happens b b'
  | .dialog text speaker options, h => by
      rw [perform] at h
      exact .single (.dialog h)
  | .spawn enemyId, h => by
      rw [perform] at h
      split at h
      · cases h
        exact .refl
      · exact .single (.spawn h)
  | .buff stat value target duration, h => by
      rw [perform] at h
      rcases withFighter_eq_ok h with rfl | ⟨f, hf, h⟩
      · exact .refl
      · obtain ⟨id, hid⟩ := target?_eq_some hf
        exact .single (.buff hid h)
  | .heal amount target, h => by
      rw [perform] at h
      rcases withFighter_eq_ok h with rfl | ⟨f, hf, h⟩
      · exact .refl
      · obtain ⟨id, hid⟩ := living?_eq_some hf
        exact .single (.heal hid h)
  | .damage amount target, h => by
      rw [perform] at h
      rcases withFighter_eq_ok h with rfl | ⟨f, hf, h⟩
      · exact .refl
      · obtain ⟨id, hid⟩ := living?_eq_some hf
        exact .single (.damage hid h)
  | .flee target, h => by
      rw [perform] at h
      cases hnamed : b.named? target with
      | none =>
          rw [hnamed] at h
          cases h
          exact .refl
      | some f =>
          obtain ⟨id, hid⟩ := named?_eq_some hnamed
          rw [hnamed] at h
          cases h
          exact .single (.flee hid)
  | .transform enemyId target, h => by
      rw [perform] at h
      exact scriptTransform_happens h
  | .multi events, h => by
      rw [perform] at h
      exact performAll_happens events h
  | .other text, h => by
      rw [perform] at h
      cases h

theorem performAll_happens {b b' : Battle} :
    ∀ es : List Event, performAll b es = .ok b' → Relation.ReflTransGen Happens b b'
  | [], h => by
      rw [performAll] at h
      cases h
      exact .refl
  | e :: es, h => by
      rw [performAll, Fallible.bind_eq_ok] at h
      obtain ⟨c, hc, h⟩ := h
      exact (perform_happens e hc).trans (performAll_happens es h)

end

/-- Nothing that fighters are made from or compared with has changed, nor any of them. -/
structure SameField (b b' : Battle) : Prop where
  game : b'.game = b.game
  rules : b'.rules = b.rules
  config : b'.config = b.config
  fighters : b'.fighters = b.fighters

/-- A property that depends on the field alone and outlives each of the ways to change it. -/
structure Lasting (P : Battle → Prop) : Prop where
  of_same {b b' : Battle} (hb : P b) (h : SameField b b') : P b'
  beginTurn {b b' : Battle} {id : String} {f : Fighter} (hf : b.fighter? id = some f)
    (h : b.beginTurn f = .ok b') (hb : P b) : P b'
  runOrder {b b' : Battle} {o : Order} {f : Fighter} (hf : b.fighter? o.actorId = some f)
    (h : b.runOrder f o = .ok b') (hb : P b) : P b'
  spawn {b b' : Battle} {e : Enemy} (h : b.spawn e = .ok b') (hb : P b) : P b'
  scriptBuff {b b' : Battle} {id stat : String} {value : Quantity} {duration : Option Int}
    {f : Fighter} (hf : b.fighter? id = some f) (h : b.scriptBuff stat value duration f = .ok b')
    (hb : P b) : P b'
  scriptHeal {b b' : Battle} {id : String} {amount : Quantity} {f : Fighter}
    (hf : b.fighter? id = some f) (h : b.scriptHeal amount f = .ok b') (hb : P b) : P b'
  scriptDamage {b b' : Battle} {id : String} {amount : Quantity} {f : Fighter}
    (hf : b.fighter? id = some f) (h : b.scriptDamage amount f = .ok b') (hb : P b) : P b'
  scriptFlee {b : Battle} {id : String} {f : Fighter} (hf : b.fighter? id = some f) (hb : P b) :
    P (b.scriptFlee f)
  transform {b b' : Battle} {id : String} {f : Fighter} {e : Enemy}
    (hf : b.fighter? id = some f) (h : b.transform f e = .ok b') (hb : P b) : P b'
  settle {b : Battle} {id : String} {f g : Fighter} (hf : b.fighter? id = some f)
    (h : refresh b.rules (withoutMagic f) = .ok g) (hb : P b) : P (b.setFighter g)

namespace Lasting

variable {P : Battle → Prop}

theorem rollQueue (h : Lasting P) {queue : List Initiative.Entry}
    (hok : b.rollQueue = .ok (queue, b')) (hb : P b) : P b' := by
  obtain ⟨dice, -, rfl⟩ := roll_eq_ok hok
  exact h.of_same hb ⟨rfl, rfl, rfl, rfl⟩

theorem win (h : Lasting P) (hok : b.win = .ok b') (hb : P b) : P b' := by
  simp only [Battle.win, Fallible.bind_eq_ok, Prod.exists] at hok
  obtain ⟨r, c, hroll, hok⟩ := hok
  obtain ⟨dice, -, rfl⟩ := roll_eq_ok hroll
  cases hok
  exact h.of_same hb ⟨rfl, rfl, rfl, rfl⟩

theorem checkEnd (h : Lasting P) (hok : b.checkEnd = .ok b') (hb : P b) : P b' := by
  simp only [Battle.checkEnd] at hok
  split at hok
  · cases hok
    exact hb
  · split at hok
    · cases hok
      exact h.of_same hb ⟨rfl, rfl, rfl, rfl⟩
    · split at hok
      · exact h.win hok hb
      · cases hok
        exact hb

theorem nextTurn (h : Lasting P) (hok : b.nextTurn = .ok b') (hb : P b) : P b' := by
  simp only [Battle.nextTurn] at hok
  split at hok
  · cases hok
    exact h.of_same hb ⟨rfl, rfl, rfl, rfl⟩
  · simp only [Fallible.bind_eq_ok, Prod.exists] at hok
    obtain ⟨queue, c, hroll, hok⟩ := hok
    have hc : P c := h.rollQueue hroll (h.of_same hb ⟨rfl, rfl, rfl, rfl⟩)
    have hqueue : P { c with queue } := h.of_same hc ⟨rfl, rfl, rfl, rfl⟩
    split at hok
    · exact h.checkEnd hok hqueue
    · cases hok
      exact hqueue

theorem endTurn (h : Lasting P) (hok : b.endTurn = .ok b') (hb : P b) : P b' :=
  h.nextTurn hok (h.of_same hb ⟨rfl, rfl, rfl, rfl⟩)

theorem executePending (h : Lasting P) (hok : b.executePending = .ok b') (hb : P b) : P b' := by
  simp only [Battle.executePending] at hok
  split at hok
  · cases hok
    exact hb
  next o _ =>
    have henter : P (b.enter .actionExecute) := h.of_same hb ⟨rfl, rfl, rfl, rfl⟩
    split at hok
    next => exact h.endTurn hok (h.of_same henter ⟨rfl, rfl, rfl, rfl⟩)
    next actor hactor =>
      simp only [Fallible.bind_eq_ok] at hok
      obtain ⟨c, hrun, d, hend, hok⟩ := hok
      have hc : P c := h.runOrder hactor hrun henter
      have hd : P d := h.checkEnd hend (h.of_same hc ⟨rfl, rfl, rfl, rfl⟩)
      split at hok
      · exact h.endTurn hok hd
      · cases hok
        exact hd

theorem dispatch (h : Lasting P) {f : Fighter} (hok : b.dispatch f = .ok b') (hb : P b) :
    P b' := by
  simp only [Battle.dispatch] at hok
  split at hok
  · exact h.endTurn hok hb
  · split at hok
    · cases hok
      exact h.of_same hb ⟨rfl, rfl, rfl, rfl⟩
    · simp only [Fallible.bind_eq_ok, Prod.exists] at hok
      obtain ⟨o, c, hroll, hok⟩ := hok
      obtain ⟨dice, -, rfl⟩ := roll_eq_ok hroll
      exact h.executePending hok (h.of_same hb ⟨rfl, rfl, rfl, rfl⟩)

theorem queueDialog (h : Lasting P) {d : Dialog} (hok : b.queueDialog d = .ok b') (hb : P b) :
    P b' := by
  have hall : ∀ c, SameField b c → P c := fun c hc => h.of_same hb hc
  simp only [Battle.queueDialog] at hok
  split at hok
  · cases hok
    exact hall _ ⟨rfl, rfl, rfl, rfl⟩
  · split at hok
    · cases hok
      exact hall _ ⟨rfl, rfl, rfl, rfl⟩
    · split at hok
      · split at hok
        · cases hok
        · cases hok
          exact hall _ ⟨rfl, rfl, rfl, rfl⟩
      · cases hok
        exact hall _ ⟨rfl, rfl, rfl, rfl⟩

theorem happens (h : Lasting P) (hstep : Happens b b') (hb : P b) : P b' := by
  cases hstep with
  | dialog hok => exact h.queueDialog hok hb
  | spawn hok => exact h.spawn hok hb
  | buff hf hok => exact h.scriptBuff hf hok hb
  | heal hf hok => exact h.scriptHeal hf hok hb
  | damage hf hok => exact h.scriptDamage hf hok hb
  | flee hf => exact h.scriptFlee hf hb
  | transform hf hok => exact h.transform hf hok hb

theorem happen (h : Lasting P) (hsteps : Relation.ReflTransGen Happens b b') (hb : P b) :
    P b' := by
  induction hsteps with
  | refl => exact hb
  | tail _ hstep ih => exact h.happens hstep ih

theorem perform (h : Lasting P) {e : Event} (hok : Battle.perform b e = .ok b') (hb : P b) :
    P b' :=
  h.happen (perform_happens e hok) hb

theorem performAll (h : Lasting P) {es : List Event} (hok : Battle.performAll b es = .ok b')
    (hb : P b) : P b' :=
  h.happen (performAll_happens es hok) hb

theorem checkTriggers (h : Lasting P) (hok : b.checkTriggers = .ok b') (hb : P b) : P b' := by
  simp only [Battle.checkTriggers, Fallible.bind_eq_ok] at hok
  obtain ⟨fired, -, hok⟩ := hok
  exact h.performAll hok (h.of_same hb ⟨rfl, rfl, rfl, rfl⟩)

theorem startTurn (h : Lasting P) (hok : b.startTurn = .ok b') (hb : P b) : P b' := by
  simp only [Battle.startTurn] at hok
  have hstart : P { b with phase := .turnStart } := h.of_same hb ⟨rfl, rfl, rfl, rfl⟩
  split at hok
  next => exact h.nextTurn hok hstart
  next f hf =>
    obtain ⟨id, hid⟩ := current?_eq_some (Option.filter_eq_some_iff.1 hf).1
    simp only [Fallible.bind_eq_ok] at hok
    obtain ⟨c, hbegin, d, htriggers, e, hend, hok⟩ := hok
    have hd : P d := h.checkTriggers htriggers (h.beginTurn hid hbegin hstart)
    have he : P e := h.checkEnd hend hd
    split at hok
    · cases hok
      exact h.of_same he ⟨rfl, rfl, rfl, rfl⟩
    · exact h.dispatch hok he

theorem run (h : Lasting P) (hok : b.run = .ok b') (hb : P b) : P b' :=
  (run_induction (fun _ _ hb _ hok => h.startTurn hok hb) hok hb).1

theorem start (h : Lasting P) (hok : b.start = .ok b') (hb : P b) : P b' := by
  simp only [Battle.start, Fallible.bind_eq_ok, Prod.exists] at hok
  obtain ⟨queue, c, hroll, hok⟩ := hok
  exact h.run hok (h.of_same (h.rollQueue hroll hb) ⟨rfl, rfl, rfl, rfl⟩)

theorem attemptFlee (h : Lasting P) (hok : b.attemptFlee = .ok b') (hb : P b) : P b' := by
  simp only [Battle.attemptFlee, Fallible.bind_eq_ok, Prod.exists] at hok
  obtain ⟨chance, -, o, c, hroll, hok⟩ := hok
  obtain ⟨dice, -, rfl⟩ := roll_eq_ok hroll
  split at hok
  · cases hok
    exact h.of_same hb ⟨rfl, rfl, rfl, rfl⟩
  · obtain ⟨d, hend, hok⟩ := Fallible.bind_eq_ok.1 hok
    exact h.run hok (h.endTurn hend (h.of_same hb ⟨rfl, rfl, rfl, rfl⟩))

theorem selectAction (h : Lasting P) {o : Order} (hok : b.selectAction o = .ok b') (hb : P b) :
    P b' := by
  have hpending : P { b with pending := some o } := h.of_same hb ⟨rfl, rfl, rfl, rfl⟩
  simp only [Battle.selectAction] at hok
  split at hok
  · cases hok
    exact hb
  · split at hok
    next => cases hok
    next =>
      split at hok
      · cases hok
        exact hb
      · split at hok
        next =>
          obtain ⟨d, hexec, hok⟩ := Fallible.bind_eq_ok.1 hok
          exact h.run hok (h.executePending hexec hpending)
        next => exact h.attemptFlee hok hpending
        next =>
          cases hok
          exact h.of_same hpending ⟨rfl, rfl, rfl, rfl⟩

theorem selectTargets (h : Lasting P) {ids : List String} (hok : b.selectTargets ids = .ok b')
    (hb : P b) : P b' := by
  simp only [Battle.selectTargets] at hok
  split at hok
  · cases hok
    exact hb
  · split at hok
    · cases hok
      exact hb
    · obtain ⟨d, hexec, hok⟩ := Fallible.bind_eq_ok.1 hok
      exact h.run hok (h.executePending hexec (h.of_same hb ⟨rfl, rfl, rfl, rfl⟩))

theorem cancelTargets (h : Lasting P) (hb : P b) : P b.cancelTargets := by
  rw [Battle.cancelTargets]
  split
  · exact hb
  · exact h.of_same hb ⟨rfl, rfl, rfl, rfl⟩

theorem resumePhase (h : Lasting P) (hok : b.resumePhase = .ok b') (hb : P b) : P b' := by
  have hresumed : P { b with phase := b.resume.headD .start, resume := b.resume.tail } :=
    h.of_same hb ⟨rfl, rfl, rfl, rfl⟩
  simp only [Battle.resumePhase] at hok
  split at hok
  · cases hok
    exact h.of_same hb ⟨rfl, rfl, rfl, rfl⟩
  · split at hok
    next =>
      obtain ⟨d, hnext, hok⟩ := Fallible.bind_eq_ok.1 hok
      exact h.run hok (h.nextTurn hnext hresumed)
    next =>
      obtain ⟨d, hdispatch, hok⟩ := Fallible.bind_eq_ok.1 hok
      exact h.run hok (h.dispatch hdispatch hresumed)

theorem afterDialog (h : Lasting P) (hok : b.afterDialog = .ok b') (hb : P b) : P b' := by
  simp only [Battle.afterDialog] at hok
  split at hok
  · cases hok
    exact h.of_same hb ⟨rfl, rfl, rfl, rfl⟩
  · exact h.resumePhase hok hb

theorem dismissDialog (h : Lasting P) (hok : b.dismissDialog = .ok b') (hb : P b) : P b' := by
  simp only [Battle.dismissDialog] at hok
  split at hok
  · cases hok
    exact hb
  · split at hok
    · exact h.afterDialog hok (h.of_same hb ⟨rfl, rfl, rfl, rfl⟩)
    · cases hok
      exact hb

theorem chooseOption (h : Lasting P) {id : String} (hok : b.chooseOption id = .ok b')
    (hb : P b) : P b' := by
  simp only [Battle.chooseOption] at hok
  split at hok
  next =>
    cases hok
    exact hb
  next d rest _ =>
    have hrest : P { b with dialogs := rest } := h.of_same hb ⟨rfl, rfl, rfl, rfl⟩
    split at hok
    next =>
      cases hok
      exact hb
    next o _ =>
      split at hok
      next => exact h.afterDialog hok hrest
      next e _ =>
        simp only [Fallible.bind_eq_ok] at hok
        obtain ⟨c, hperform, d, hend, hok⟩ := hok
        exact h.afterDialog hok (h.checkEnd hend (h.perform hperform hrest))

theorem settleAll (h : Lasting P) {ids : List String} (hok : b.settleAll ids = .ok b')
    (hb : P b) : P b' := by
  induction ids generalizing b with
  | nil =>
      cases hok
      exact hb
  | cons id ids ih =>
      simp only [Battle.settleAll] at hok
      split at hok
      next => exact ih hok hb
      next f hf =>
        obtain ⟨g, hg, hok⟩ := Fallible.bind_eq_ok.1 hok
        exact ih hok (h.settle hf (Fallible.leaving_eq_ok.1 hg) hb)

theorem close (h : Lasting P) (hok : b.close = .ok b') (hb : P b) : P b' := by
  simp only [Battle.close, Fallible.bind_eq_ok] at hok
  obtain ⟨c, hsettle, hok⟩ := hok
  cases hok
  exact h.of_same (h.settleAll hsettle hb) ⟨rfl, rfl, rfl, rfl⟩

theorem apply (h : Lasting P) {c : Command} (hok : c.apply b = .ok b') (hb : P b) : P b' := by
  cases c with
  | start => exact h.start hok hb
  | selectAction o => exact h.selectAction hok hb
  | selectTargets ids => exact h.selectTargets hok hb
  | cancelTargets =>
      cases hok
      exact h.cancelTargets hb
  | queueDialog d => exact h.queueDialog hok hb
  | dismissDialog => exact h.dismissDialog hok hb
  | chooseOption id => exact h.chooseOption hok hb
  | perform e => exact h.perform hok hb
  | close => exact h.close hok hb

end Lasting

end Skirmish.Battle

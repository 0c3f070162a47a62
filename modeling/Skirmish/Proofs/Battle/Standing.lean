import Skirmish.Proofs.Battle.CommandCases
import Skirmish.Proofs.Battle.Enrollment
import Skirmish.Proofs.Battle.Footprint
import Skirmish.Proofs.Battle.Hush

namespace Skirmish.Battle

def Phase.interruptible : List Phase := [.start, .turnStart, .actionSelect, .targetSelect]

variable {ts : List Trigger} {b b' : Battle} {f : Fighter} {p : Phase}

/-- The phase that lies behind the dialogs. -/
def stage (b : Battle) : Phase := if b.phase = .dialog then b.resume.headD .start else b.phase

theorem stage_of_ne (h : b.phase ≠ .dialog) : b.stage = b.phase := if_neg h

theorem stage_of_dialog (h : b.phase = .dialog) : b.stage = b.resume.headD .start := if_pos h

theorem phase_ne_of_isOver (h : b.isOver = true) : b.phase ≠ .dialog := by
  intro heq
  simp [isOver, heq, Phase.isTerminal] at h

/-- A dialog lies over one phase, else no phase is interrupted; only a battle that has come to a
decision has an outcome. -/
structure Standing (ts : List Trigger) (b : Battle) : Prop where
  triggers : b.triggers.triggers ⊆ ts
  interrupted : b.phase = .dialog → ∃ p ∈ Phase.interruptible, b.resume = [p]
  resume : b.phase ≠ .dialog → b.resume = []
  dialogs : b.phase ≠ .dialog → b.isOver = false → b.dialogs = []
  outcome : b.outcome.isSome = true ↔ b.phase = .victory ∨ b.phase = .defeat

structure Silent (ts : List Trigger) (b : Battle) : Prop where
  triggers : b.triggers.triggers ⊆ ts
  resume : b.resume = []
  dialogs : b.dialogs = []
  outcome : b.outcome = none

structure Decided (ts : List Trigger) (b : Battle) : Prop where
  triggers : b.triggers.triggers ⊆ ts
  phase : b.phase = .victory ∨ b.phase = .defeat
  resume : b.resume = []
  outcome : b.outcome.isSome = true

def Voiced (b : Battle) : Prop := b.phase = .dialog → b.dialogs ≠ []

theorem voiced_of_ne (h : b.phase ≠ .dialog) : Voiced b := fun heq => absurd heq h

theorem Decided.isOver (h : Decided ts b) : b.isOver = true := by
  rcases h.phase with hphase | hphase
  all_goals simp [Battle.isOver, hphase, Phase.isTerminal]

theorem Decided.standing (h : Decided ts b) : Standing ts b where
  triggers := h.triggers
  interrupted heq := absurd heq (phase_ne_of_isOver h.isOver)
  resume _ := h.resume
  dialogs _ hover := absurd h.isOver (by simp [hover])
  outcome := iff_of_true h.outcome h.phase

theorem Silent.standing (h : Silent ts b) (hphase : b.phase ≠ .dialog) (hover : b.isOver = false) :
    Standing ts b where
  triggers := h.triggers
  interrupted heq := absurd heq hphase
  resume _ := h.resume
  dialogs _ _ := h.dialogs
  outcome := by
    refine iff_of_false (by simp [h.outcome]) ?_
    rintro (heq | heq)
    all_goals simp [isOver, heq, Phase.isTerminal] at hover

theorem Standing.outcome_eq_none (h : Standing ts b) (hover : b.isOver = false) :
    b.outcome = none := by
  refine Option.not_isSome_iff_eq_none.1 fun hsome => ?_
  rcases h.outcome.1 hsome with heq | heq
  all_goals simp [isOver, heq, Phase.isTerminal] at hover

theorem Standing.notify (h : Standing ts b) : Standing ts b.notify :=
  ⟨h.triggers, h.interrupted, h.resume, h.dialogs, h.outcome⟩

theorem Standing.silent (h : Standing ts b) (hphase : b.phase ≠ .dialog)
    (hover : b.isOver = false) : Silent ts b where
  triggers := h.triggers
  resume := h.resume hphase
  dialogs := h.dialogs hphase hover
  outcome := h.outcome_eq_none hover

def ComesTo (ts : List Trigger) (p : Phase) (b : Battle) : Prop :=
  Silent ts b ∧ b.phase = p ∨ Decided ts b

theorem ComesTo.standing (h : ComesTo ts p b) (hp : p ≠ .dialog) (hover : p.isTerminal = false) :
    Standing ts b ∧ Voiced b := by
  rcases h with ⟨h, rfl⟩ | h
  · exact ⟨h.standing hp hover, voiced_of_ne hp⟩
  · exact ⟨h.standing, voiced_of_ne (phase_ne_of_isOver h.isOver)⟩

theorem Standing.checkEnd (h : Standing ts b) (hok : b.checkEnd = .ok b') :
    b' = b ∧ (b.outcome.isSome = true ∨ b.Contested) ∨ b.outcome = none ∧ Decided ts b' := by
  rcases checkEnd_cases hok with hsame | ⟨hnone, -, phase, outcome, dice, log, notices, hphase, rfl⟩
  · exact .inl hsame
  · exact .inr ⟨hnone, h.triggers, hphase, rfl, rfl⟩

namespace Silent

theorem checkEnd (h : Silent ts b) (hok : b.checkEnd = .ok b') : ComesTo ts b.phase b' := by
  rcases checkEnd_cases hok with ⟨rfl, -⟩ | ⟨-, -, phase, outcome, dice, log, notices, hphase, rfl⟩
  · exact .inl ⟨h, rfl⟩
  · exact .inr ⟨h.triggers, hphase, rfl, rfl⟩

theorem nextTurn (h : Silent ts b) (hok : b.nextTurn = .ok b') : ComesTo ts b.phase b' := by
  rcases nextTurn_cases hok with ⟨-, rfl⟩ | ⟨-, turn, queue, dice, -, ⟨-, rfl⟩ | ⟨-, hend⟩⟩
  · exact .inl ⟨⟨h.triggers, h.resume, h.dialogs, h.outcome⟩, rfl⟩
  · exact .inl ⟨⟨h.triggers, h.resume, h.dialogs, h.outcome⟩, rfl⟩
  · exact checkEnd (b := { b with turn, index := 0, queue, dice })
      ⟨h.triggers, h.resume, h.dialogs, h.outcome⟩ hend

theorem endTurn (h : Silent ts b) (hok : b.endTurn = .ok b') : ComesTo ts .turnEnd b' :=
  nextTurn (b := b.enter .turnEnd) ⟨h.triggers, h.resume, h.dialogs, h.outcome⟩ hok

theorem acted (h : Silent ts b) (hacted : Acted b b') : Silent ts b' := by
  obtain ⟨fighters, dice, log, rfl⟩ := hacted
  exact ⟨h.triggers, h.resume, h.dialogs, h.outcome⟩

theorem executePending {o : Order} (h : Silent ts b) (ho : b.pending = some o)
    (hok : b.executePending = .ok b') : ComesTo ts .turnEnd b' := by
  rcases executePending_cases ho hok with
    ⟨notices, hend⟩ | ⟨g, c, d, notices, -, hacted, hcheck, hlast⟩
  · exact endTurn (b := { b with phase := .actionExecute, notices, pending := none })
      ⟨h.triggers, h.resume, h.dialogs, h.outcome⟩ hend
  · have hc : Silent ts c := acted (b := { b with phase := .actionExecute, notices })
      ⟨h.triggers, h.resume, h.dialogs, h.outcome⟩ hacted
    have hd := checkEnd (b := { c with pending := none })
      ⟨hc.triggers, hc.resume, hc.dialogs, hc.outcome⟩ hcheck
    obtain ⟨fighters, dice, log, rfl⟩ := hacted
    rcases hd with ⟨hd, hphase⟩ | hd
    · rcases hlast with ⟨-, hend⟩ | ⟨hne, -⟩
      · exact hd.endTurn hend
      · exact absurd hphase hne
    · rcases hlast with ⟨hphase, -⟩ | ⟨-, rfl⟩
      · exact absurd hd.isOver (by simp [isOver, hphase, Phase.isTerminal])
      · exact .inr hd

theorem dispatch (h : Silent ts b) (hok : b.dispatch f = .ok b') :
    ComesTo ts .turnEnd b' ∨ f.isAlive = true ∧ f.isPlayer = true ∧ b' = b.enter .actionSelect := by
  rcases dispatch_cases hok with ⟨-, hend⟩ | hplayer | ⟨-, -, o, dice, hexecute⟩
  · exact .inl (h.endTurn hend)
  · exact .inr hplayer
  · exact .inl (executePending (b := { b with dice, pending := some o })
      ⟨h.triggers, h.resume, h.dialogs, h.outcome⟩ rfl hexecute)

theorem enter (h : Silent ts b) (p : Phase) : Silent ts (b.enter p) :=
  ⟨h.triggers, h.resume, h.dialogs, h.outcome⟩

theorem dispatch_standing (h : Silent ts b) (hok : b.dispatch f = .ok b') :
    Standing ts b' ∧ Voiced b' := by
  rcases h.dispatch hok with hend | ⟨-, -, rfl⟩
  · exact hend.standing (by decide) rfl
  · exact ⟨(h.enter _).standing (by rintro ⟨⟩) rfl, voiced_of_ne (by rintro ⟨⟩)⟩

end Silent

/-- The battle stands in a phase, or a dialog lies over that phase. -/
structure Open (ts : List Trigger) (p : Phase) (b : Battle) : Prop where
  standing : Standing ts b
  stage : b.stage = p

def Phase.IsOpen (p : Phase) : Prop := p ∈ Phase.interruptible ∨ p.isTerminal = true

namespace Open

theorem congr (h : Open ts p b) (htriggers : b'.triggers.triggers ⊆ b.triggers.triggers)
    (hphase : b'.phase = b.phase) (hresume : b'.resume = b.resume)
    (hdialogs : b.phase = .dialog ∨ b.isOver = true ∨ b'.dialogs = b.dialogs)
    (houtcome : b'.outcome = b.outcome) : Open ts p b' where
  standing :=
    { triggers := List.Subset.trans htriggers h.standing.triggers
      interrupted := by
        rw [hphase, hresume]
        exact h.standing.interrupted
      resume := by
        rw [hphase, hresume]
        exact h.standing.resume
      dialogs := by
        rw [isOver, hphase, ← isOver]
        intro hne hover
        rcases hdialogs with heq | hover' | hsame
        · exact absurd heq hne
        · exact absurd hover' (by simp [hover])
        · exact hsame ▸ h.standing.dialogs hne hover
      outcome := by
        rw [hphase, houtcome]
        exact h.standing.outcome }
  stage := by rw [Battle.stage, hphase, hresume, ← Battle.stage, h.stage]

theorem queueDialog {d : Dialog} (hp : p.IsOpen) (h : Open ts p b)
    (hok : b.queueDialog d = .ok b') : Open ts p b' := by
  rcases queueDialog_cases hok with
    ⟨hcase, notices, rfl⟩ | ⟨hne, hover, resume, notices, hresume, rfl⟩
  · exact h.congr (List.Subset.refl _) rfl rfl (hcase.imp id .inl) rfl
  · have hs := h.standing.silent hne hover
    have hphase : b.phase = p := by rw [← stage_of_ne hne, h.stage]
    have hmem : p ∈ Phase.interruptible := by
      refine hp.resolve_right fun hterminal => ?_
      rw [isOver, hphase, hterminal] at hover
      cases hover
    have hresume : resume = [p] := by simpa [hs.resume, hphase] using hresume
    refine ⟨⟨hs.triggers, fun _ => ⟨p, hmem, hresume⟩, by simp, by simp, ?_⟩, ?_⟩
    · simp [hs.outcome]
    · simp [Battle.stage, hresume]

theorem happens (hp : p.IsOpen) (h : Open ts p b) (hstep : Happens b b') : Open ts p b' := by
  rcases happens_cases hstep with
    ⟨d, hd⟩ | ⟨d, queue, ⟨fighters, origins, buffsMade, log, rfl⟩, rfl⟩
  · exact h.queueDialog hp hd
  · exact h.congr (List.Subset.refl _) rfl rfl (.inr (.inr rfl)) rfl

theorem happen (hp : p.IsOpen) (h : Open ts p b)
    (hsteps : Relation.ReflTransGen Happens b b') : Open ts p b' := by
  induction hsteps with
  | refl => exact h
  | tail _ hstep ih => exact ih.happens hp hstep

end Open

theorem Voiced.happen (h : Voiced b) (hsteps : Relation.ReflTransGen Happens b b') :
    Voiced b' := by
  induction hsteps with
  | refl => exact h
  | tail _ hstep ih =>
      rcases happens_cases hstep with
        ⟨d, hd⟩ | ⟨d, queue, ⟨fighters, origins, buffsMade, log, rfl⟩, rfl⟩
      · rcases queueDialog_cases hd with ⟨-, notices, rfl⟩ | ⟨-, -, resume, notices, -, rfl⟩
        all_goals exact fun _ => by simp
      · exact ih

theorem checkTriggers_happen (h : b.checkTriggers = .ok b') :
    ∃ triggers, triggers.triggers = b.triggers.triggers ∧
      Relation.ReflTransGen Happens { b with triggers } b' := by
  obtain ⟨fired, -, h⟩ := Fallible.bind_eq_ok.1 h
  exact ⟨_, b.triggers.triggers_evaluate _ _, performAll_happens _ h⟩

theorem settleAll_eq_ok {ids : List String} (h : b.settleAll ids = .ok b') :
    ∃ fighters, b' = { b with fighters } := by
  induction ids generalizing b with
  | nil =>
      cases h
      exact ⟨_, rfl⟩
  | cons id ids ih =>
      simp only [settleAll] at h
      split at h
      next => exact ih h
      next =>
        obtain ⟨g, -, h⟩ := Fallible.bind_eq_ok.1 h
        obtain ⟨fighters, rfl⟩ := ih h
        exact ⟨fighters, rfl⟩

/-- A turn has begun: time has passed for its fighter, and the triggers have fired. -/
def Begun (b : Battle) (f : Fighter) (d : Battle) : Prop :=
  b.current? = some f ∧ f.isAlive = true ∧
    ∃ c, beginTurn { b with phase := .turnStart } f = .ok c ∧ c.checkTriggers = .ok d

inductive TakesTurn (ts : List Trigger) (b b' : Battle) : Prop
  | pass (hcurrent : b.current?.filter Fighter.isAlive = none)
      (hnext : nextTurn { b with phase := .turnStart } = .ok b')
  | decide (h : Decided ts b')
  | interrupt {f : Fighter} {d : Battle} (hbegun : Begun b f d) (hd : Open ts .turnStart d)
      (hvoiced : Voiced d) (hphase : d.phase = .dialog) (hcontested : d.Contested)
      (hnotify : b' = d.notify)
  | act {f : Fighter} {d : Battle} (hbegun : Begun b f d) (hd : Silent ts d)
      (hphase : d.phase = .turnStart) (hcontested : d.Contested)
      (hdispatch : d.dispatch ((d.fighter? f.id).getD f) = .ok b')

theorem Silent.begun {d : Battle} (h : Silent ts b) (hbegun : Begun b f d) :
    Open ts .turnStart d ∧ Voiced d := by
  obtain ⟨-, -, c, hbegin, htriggers⟩ := hbegun
  obtain ⟨fighters, dice, log, rfl⟩ := Acted.beginTurn hbegin
  obtain ⟨book, hbook, hhappen⟩ := checkTriggers_happen htriggers
  have hopen : Open ts .turnStart
      { b with phase := .turnStart, fighters, dice, log, triggers := book } := by
    refine ⟨standing ⟨?_, h.resume, h.dialogs, h.outcome⟩ (by simp) rfl, stage_of_ne (by simp)⟩
    exact hbook ▸ h.triggers
  exact ⟨hopen.happen (.inl (by decide)) hhappen, (voiced_of_ne (by simp)).happen hhappen⟩

theorem Silent.undecided {d e : Battle} (h : Silent ts b) (hbegun : Begun b f d)
    (hend : d.checkEnd = .ok e) :
    (e = d ∧ d.Contested ∧ (d.phase = .turnStart ∨ d.phase = .dialog)) ∨ Decided ts e := by
  have hd := (h.begun hbegun).1
  have hphase : d.phase = .turnStart ∨ d.phase = .dialog := by
    by_cases hdialog : d.phase = .dialog
    · exact .inr hdialog
    · exact .inl (stage_of_ne hdialog ▸ hd.stage)
  have hnone : d.outcome = none := by
    refine hd.standing.outcome_eq_none ?_
    rcases hphase with heq | heq
    all_goals simp [isOver, heq, Phase.isTerminal]
  rcases hd.standing.checkEnd hend with ⟨rfl, hcase⟩ | ⟨-, he⟩
  · exact .inl ⟨rfl, hcase.resolve_left (by simp [hnone]), hphase⟩
  · exact .inr he

theorem Silent.takesTurn (h : Silent ts b) (hok : b.startTurn = .ok b') : TakesTurn ts b b' := by
  rcases startTurn_cases hok with
    ⟨hcurrent, hnext⟩ | ⟨f, c, d, e, hf, halive, hbegin, htriggers, hend, hlast⟩
  · exact .pass hcurrent hnext
  · have hbegun : Begun b f d := ⟨hf, halive, c, hbegin, htriggers⟩
    obtain ⟨hd, hvoiced⟩ := h.begun hbegun
    rcases h.undecided hbegun hend with ⟨rfl, hcontested, hphase⟩ | he
    · have hover : e.isOver = false := by
        rcases hphase with heq | heq
        all_goals simp [isOver, heq, Phase.isTerminal]
      rcases hlast with ⟨hstops, rfl⟩ | ⟨hgoes, hdispatch⟩
      · exact .interrupt hbegun hd hvoiced (by simpa [hover] using hstops) hcontested rfl
      · have hne : e.phase ≠ .dialog := by simpa [hover] using hgoes
        exact .act hbegun (hd.standing.silent hne hover) (hphase.resolve_right hne) hcontested
          hdispatch
    · rcases hlast with ⟨-, rfl⟩ | ⟨hgoes, -⟩
      · have hnotified : Decided ts e.notify := ⟨he.triggers, he.phase, he.resume, he.outcome⟩
        exact .decide hnotified
      · simp [he.isOver] at hgoes

theorem TakesTurn.standing (h : Silent ts b) (hturn : TakesTurn ts b b') :
    Standing ts b' ∧ Voiced b' := by
  cases hturn with
  | pass _ hnext =>
      have hpassed := Silent.nextTurn (b := { b with phase := .turnStart })
        ⟨h.triggers, h.resume, h.dialogs, h.outcome⟩ hnext
      exact hpassed.standing (by simp) rfl
  | decide hdecided =>
      exact ⟨hdecided.standing, voiced_of_ne (phase_ne_of_isOver hdecided.isOver)⟩
  | interrupt _ hd hvoiced _ _ hnotify =>
      subst hnotify
      exact ⟨hd.standing.notify, hvoiced⟩
  | act _ hd _ _ hdispatch => exact hd.dispatch_standing hdispatch

structure Paused (ts : List Trigger) (b : Battle) : Prop where
  standing : Standing ts b
  voiced : Voiced b
  phase : b.phase = .start ∨ b.isRunning = false

theorem Standing.silent_of_isRunning (h : Standing ts b) (hruns : b.isRunning = true) :
    Silent ts b := by
  simp only [isRunning, Bool.and_eq_true, Bool.not_eq_true'] at hruns
  refine h.silent (fun heq => ?_) hruns.1
  simp [heq, Phase.isWaiting] at hruns

theorem Standing.run (h : Standing ts b ∧ Voiced b) (hok : b.run = .ok b') : Paused ts b' := by
  have hstep : ∀ c c', Standing ts c ∧ Voiced c → c.isRunning = true → c.startTurn = .ok c' →
      Standing ts c' ∧ Voiced c' := by
    intro c c' hc hruns hturn
    have hsilent := hc.1.silent_of_isRunning hruns
    exact (hsilent.takesTurn hturn).standing hsilent
  obtain ⟨⟨hstanding, hvoiced⟩, hwaits⟩ := run_induction hstep hok h
  exact ⟨hstanding, hvoiced, .inr hwaits⟩

theorem Silent.paused (h : Silent ts b)
    (hphase : b.phase = .start ∨ b.phase = .actionSelect ∨ b.phase = .targetSelect) :
    Paused ts b := by
  have hne : b.phase ≠ .dialog := by
    rintro heq
    simp [heq] at hphase
  refine ⟨h.standing hne ?_, voiced_of_ne hne, ?_⟩
  · rcases hphase with heq | heq | heq
    all_goals simp [isOver, heq, Phase.isTerminal]
  · refine hphase.imp_right fun hphase => ?_
    rcases hphase with heq | heq
    all_goals simp [isRunning, heq, Phase.isWaiting]

theorem Silent.round (h : Silent ts b) (dice : Dice) (queue : List Initiative.Entry) :
    Standing ts { b with dice, queue, turn := 1, index := 0, phase := .turnStart } ∧
      Voiced { b with dice, queue, turn := 1, index := 0, phase := .turnStart } :=
  ⟨standing ⟨h.triggers, h.resume, h.dialogs, h.outcome⟩ (by simp) rfl, voiced_of_ne (by simp)⟩

theorem Silent.start (h : Silent ts b) (hok : b.start = .ok b') : Paused ts b' := by
  obtain ⟨⟨queue, c⟩, hroll, hok⟩ := Fallible.bind_eq_ok.1 hok
  obtain ⟨dice, -, rfl⟩ := roll_eq_ok hroll
  exact Standing.run (h.round dice queue) hok

theorem ComesTo.run (h : ComesTo ts .turnEnd b) (hok : b.run = .ok b') : Paused ts b' :=
  Standing.run (h.standing (by decide) rfl) hok

theorem Silent.attemptFlee (h : Silent ts b) (hok : b.attemptFlee = .ok b') : Paused ts b' := by
  rcases attemptFlee_cases hok with ⟨dice, log, notices, rfl⟩ | ⟨dice, log, c, hend, hrun⟩
  · refine ⟨⟨h.triggers, ?_, fun _ => rfl, ?_, ?_⟩, voiced_of_ne (by simp), .inr rfl⟩
    · simp
    · simp [isOver, Phase.isTerminal]
    · simp [h.outcome]
  · have hc := Silent.endTurn (b := { b with pending := none, dice, log })
      ⟨h.triggers, h.resume, h.dialogs, h.outcome⟩ hend
    exact hc.run hrun

theorem happen_keeps (hopen : b.phase = .dialog ∨ b.isOver = true)
    (hsteps : Relation.ReflTransGen Happens b b') : b'.phase = b.phase := by
  induction hsteps with
  | refl => rfl
  | @tail c d _ hstep ih =>
      have hopen : c.phase = .dialog ∨ c.isOver = true := by
        rw [isOver, ih]
        exact hopen
      rcases happens_cases hstep with
        ⟨d, hd⟩ | ⟨d, queue, ⟨fighters, origins, buffsMade, log, rfl⟩, rfl⟩
      · rcases queueDialog_cases hd with ⟨-, notices, rfl⟩ | ⟨hne, hover, -⟩
        · exact ih
        · exact absurd (hopen.resolve_left hne) (by simp [hover])
      · exact ih

theorem happen_phase (hsteps : Relation.ReflTransGen Happens b b') :
    b'.phase = b.phase ∨ b'.phase = .dialog := by
  induction hsteps with
  | refl => exact .inl rfl
  | tail _ hstep ih =>
      rcases happens_cases hstep with
        ⟨d, hd⟩ | ⟨d, queue, ⟨fighters, origins, buffsMade, log, rfl⟩, rfl⟩
      · rcases queueDialog_cases hd with ⟨-, notices, rfl⟩ | ⟨-, -, resume, notices, -, rfl⟩
        · exact ih
        · exact .inr rfl
      · exact ih

namespace Standing

theorem setDialogs (h : Standing ts b) (hopen : b.phase = .dialog ∨ b.isOver = true)
    (dialogs : List Dialog) : Standing ts { b with dialogs } := by
  refine ⟨h.triggers, h.interrupted, h.resume, fun hne hover => ?_, h.outcome⟩
  exact absurd (hopen.resolve_left hne) (by rw [isOver] at hover ⊢; simp [hover])

theorem resumed (h : Standing ts b) (hphase : b.phase = .dialog) (hdialogs : b.dialogs = []) :
    Silent ts b.resumed := by
  obtain ⟨p, -, hresume⟩ := h.interrupted hphase
  refine ⟨h.triggers, by simp [Battle.resumed, hresume], hdialogs, ?_⟩
  exact h.outcome_eq_none (by simp [isOver, hphase, Phase.isTerminal])

theorem resumePhase (h : Standing ts b) (hphase : b.phase = .dialog) (hdialogs : b.dialogs = [])
    (hok : b.resumePhase = .ok b') : Paused ts b' := by
  obtain ⟨p, hp, hresume⟩ := h.interrupted hphase
  have hnone := h.outcome_eq_none (by simp [isOver, hphase, Phase.isTerminal])
  rcases resumePhase_cases hok with ⟨hne, rfl⟩ | ⟨heq, c, hrun, hcase⟩
  · have hsilent : Silent ts
        (Battle.notify { b with phase := b.resume.headD .start, resume := b.resume.tail }) :=
      ⟨h.triggers, by simp [Battle.notify, hresume], hdialogs, hnone⟩
    refine hsilent.paused ?_
    simpa [Battle.notify, Phase.interruptible, hresume] using
      (List.mem_filter (p := (· ≠ .turnStart))).2 ⟨hp, by simpa [hresume] using hne⟩
  · have hsilent := h.resumed hphase hdialogs
    refine Standing.run ?_ hrun
    rcases hcase with ⟨-, hnext⟩ | ⟨f, -, hdispatch⟩
    · exact (hsilent.nextTurn hnext).standing (by simp [Battle.resumed]) rfl
    · exact hsilent.dispatch_standing hdispatch

theorem afterDialog (h : Standing ts b) (hopen : b.phase = .dialog ∨ b.isOver = true)
    (hok : b.afterDialog = .ok b') : Paused ts b' := by
  rcases afterDialog_cases hok with ⟨hstays, rfl⟩ | ⟨hdialogs, hover, hresume⟩
  · refine ⟨h.notify, fun hdialog => ?_, .inr ?_⟩
    · exact hstays.resolve_right fun hover => phase_ne_of_isOver hover hdialog
    · rcases hopen with hdialog | hover
      · simp [isRunning, Battle.notify, hdialog, Phase.isWaiting]
      · have hterminal : b.phase.isTerminal = true := hover
        simp [isRunning, Battle.notify, hterminal]
  · exact h.resumePhase (hopen.resolve_right (by simp [hover])) hdialogs hresume

end Standing

namespace Paused

theorem silent (h : Paused ts b) (hphase : b.phase = p) (hp : p ≠ .dialog)
    (hover : p.isTerminal = false) : Silent ts b := by
  subst hphase
  exact h.standing.silent hp hover

theorem selectAction {o : Order} (h : Paused ts b) (hok : b.selectAction o = .ok b') :
    Paused ts b' := by
  rcases selectAction_cases hok with rfl | ⟨hphase, -, hcase⟩
  · exact h
  · have hsilent := h.silent hphase (by decide) rfl
    have hpending : Silent ts { b with pending := some o } :=
      ⟨hsilent.triggers, hsilent.resume, hsilent.dialogs, hsilent.outcome⟩
    rcases hcase with ⟨-, c, hexecute, hrun⟩ | ⟨-, hflee⟩ | ⟨-, rfl⟩
    · exact (hpending.executePending rfl hexecute).run hrun
    · exact hpending.attemptFlee hflee
    · exact (hpending.enter _).paused (.inr (.inr rfl))

theorem selectTargets {ids : List String} (h : Paused ts b)
    (hok : b.selectTargets ids = .ok b') : Paused ts b' := by
  rcases selectTargets_cases hok with rfl | ⟨o, c, -, hphase, hexecute, hrun⟩
  · exact h
  · have hsilent := h.silent hphase (by decide) rfl
    have hc := Silent.executePending (b := { b with pending := some { o with targets := ids } })
      ⟨hsilent.triggers, hsilent.resume, hsilent.dialogs, hsilent.outcome⟩ rfl hexecute
    exact hc.run hrun

theorem cancelTargets (h : Paused ts b) : Paused ts b.cancelTargets := by
  rcases cancelTargets_cases b with heq | ⟨hphase, heq⟩
  · rwa [heq]
  · have hsilent := h.silent hphase (by decide) rfl
    have hentered : Silent ts (enter { b with pending := none } .actionSelect) :=
      ⟨hsilent.triggers, hsilent.resume, hsilent.dialogs, hsilent.outcome⟩
    rw [heq]
    exact hentered.paused (.inr (.inl rfl))

/-- Where a dialog waits, one lies over the phase or the battle is over. -/
theorem dialog_or_isOver (h : Paused ts b) (hdialogs : b.dialogs ≠ []) :
    b.phase = .dialog ∨ b.isOver = true := by
  by_cases hphase : b.phase = .dialog
  · exact .inl hphase
  · exact .inr (by simpa using mt (h.standing.dialogs hphase) hdialogs)

theorem isOpen (h : Paused ts b) : b.stage.IsOpen := by
  by_cases hphase : b.phase = .dialog
  · obtain ⟨p, hp, hresume⟩ := h.standing.interrupted hphase
    exact .inl (by simpa [stage, hphase, hresume] using hp)
  · rw [stage_of_ne hphase]
    rcases h.phase with hstart | hwaits
    · exact .inl (by simp [hstart, Phase.interruptible])
    · revert hwaits hphase
      simp only [isRunning, Phase.IsOpen]
      cases b.phase <;> simp [Phase.isTerminal, Phase.isWaiting, Phase.interruptible]

theorem happen (h : Paused ts b) (hsteps : Relation.ReflTransGen Happens b b') :
    Paused ts b' := by
  have hopen : Open ts b.stage b := ⟨h.standing, rfl⟩
  refine ⟨(hopen.happen h.isOpen hsteps).standing, h.voiced.happen hsteps, ?_⟩
  rcases happen_phase hsteps with heq | heq
  · rw [isRunning, heq]
    exact h.phase
  · exact .inr (by simp [isRunning, heq, Phase.isWaiting])

theorem dismissDialog (h : Paused ts b) (hok : b.dismissDialog = .ok b') : Paused ts b' := by
  rcases dismissDialog_cases hok with rfl | ⟨d, rest, hdialogs, -, hafter⟩
  · exact h
  · have hopen := h.dialog_or_isOver (by simp [hdialogs])
    exact (h.standing.setDialogs hopen rest).afterDialog hopen hafter

theorem answered {rest : List Dialog} {e : Event} {x y : Battle} (h : Paused ts b)
    (hdialogs : b.dialogs ≠ []) (hperform : Battle.perform { b with dialogs := rest } e = .ok x)
    (hend : x.checkEnd = .ok y) : Standing ts y ∧ (y.phase = .dialog ∨ y.isOver = true) := by
  have hopen := h.dialog_or_isOver hdialogs
  have hhappen := perform_happens e hperform
  have hrest : Open ts b.stage { b with dialogs := rest } :=
    ⟨h.standing.setDialogs hopen rest, rfl⟩
  have hx := hrest.happen h.isOpen hhappen
  have hphase := happen_keeps (b := { b with dialogs := rest }) hopen hhappen
  rcases hx.standing.checkEnd hend with ⟨rfl, -⟩ | ⟨-, hy⟩
  · refine ⟨hx.standing, ?_⟩
    rw [isOver, hphase]
    exact hopen
  · exact ⟨hy.standing, .inr hy.isOver⟩

theorem chooseOption {id : String} (h : Paused ts b) (hok : b.chooseOption id = .ok b') :
    Paused ts b' := by
  rcases chooseOption_cases hok with rfl | ⟨d, rest, o, hdialogs, -, hcase⟩
  · exact h
  · rcases hcase with ⟨-, hafter⟩ | ⟨e, x, y, -, hperform, hend, hafter⟩
    · have hopen := h.dialog_or_isOver (by simp [hdialogs])
      exact (h.standing.setDialogs hopen rest).afterDialog hopen hafter
    · obtain ⟨hy, hopen⟩ := h.answered (by simp [hdialogs]) hperform hend
      exact hy.afterDialog hopen hafter

theorem close (h : Paused ts b) (hok : b.close = .ok b') : Paused ts b' := by
  obtain ⟨c, hsettle, hok⟩ := Fallible.bind_eq_ok.1 hok
  obtain ⟨fighters, rfl⟩ := settleAll_eq_ok hsettle
  cases hok
  refine ⟨⟨?_, h.standing.interrupted, h.standing.resume, h.standing.dialogs, h.standing.outcome⟩,
    h.voiced, h.phase⟩
  exact List.nil_subset ts

end Paused

/-- A battle is started only from its first phase. -/
def Command.Fits (k : Command) (b : Battle) : Prop := k = .start → b.phase = .start

theorem Paused.apply {k : Command} (h : Paused ts b) (hk : k.Fits b) (hok : k.apply b = .ok b') :
    Paused ts b' := by
  cases k with
  | start =>
      exact (h.silent (hk rfl) (by decide) rfl).start hok
  | selectAction o => exact h.selectAction hok
  | selectTargets ids => exact h.selectTargets hok
  | cancelTargets =>
      cases hok
      exact h.cancelTargets
  | queueDialog d => exact h.happen (.single (.dialog hok))
  | dismissDialog => exact h.dismissDialog hok
  | chooseOption id => exact h.chooseOption hok
  | perform e => exact h.happen (perform_happens e hok)
  | close => exact h.close hok

theorem phase_of_assemble {player : Option Character} {enemies : Option (List Enemy)}
    (h : b.assemble player enemies = .ok b') : b'.phase = .start := by
  obtain ⟨f, -, h⟩ := Fallible.bind_eq_ok.1 h
  obtain ⟨d, -, h⟩ := Fallible.bind_eq_ok.1 h
  cases h
  rfl

theorem Paused.assemble {player : Option Character} {enemies : Option (List Enemy)}
    (h : b.assemble player enemies = .ok b') : Paused b'.triggers.triggers b' := by
  obtain ⟨f, -, h⟩ := Fallible.bind_eq_ok.1 h
  obtain ⟨d, hd, h⟩ := Fallible.bind_eq_ok.1 h
  obtain ⟨fs, -, -, rfl⟩ := enrollAll_eq_ok hd
  cases h
  exact Silent.paused ⟨List.Subset.refl _, rfl, rfl, rfl⟩ (.inl rfl)

/-- Commands of a kind, one after the other. -/
abbrev Course (allowed : Command → Prop) : Battle → Battle → Prop :=
  Relation.ReflTransGen fun b b' => ∃ k, allowed k ∧ k.Fits b ∧ k.apply b = .ok b'

theorem Lasting.course {P : Battle → Prop} {allowed : Command → Prop} (h : Lasting P)
    (hcourse : Course allowed b b') (hb : P b) : P b' := by
  induction hcourse with
  | refl => exact hb
  | tail _ hstep ih =>
      obtain ⟨k, -, -, hok⟩ := hstep
      exact h.apply hok ih

theorem Paused.course {allowed : Command → Prop} (h : Paused ts b) (hcourse : Course allowed b b') :
    Paused ts b' := by
  induction hcourse with
  | refl => exact h
  | tail _ hstep ih =>
      obtain ⟨k, -, hk, hok⟩ := hstep
      exact ih.apply hk hok

end Skirmish.Battle

import Skirmish.Proofs.Battle.Aftermath

namespace Skirmish.Battle

variable {ts : List Trigger} {b b' : Battle} {s t : Call}

def Due (ts : List Trigger) : Call → Prop
  | (b, .command k) => k.Fits b ∧ Paused ts b
  | (b, .attemptFlee) => Silent ts b
  | (b, .turns) => Standing ts b ∧ Voiced b
  | (b, .startTurn) => Silent ts b
  | (b, .dispatch _) => Silent ts b
  | (b, .executePending) => Silent ts b
  | (b, .perform _) => ∃ p, p.IsOpen ∧ Open ts p b
  | (b, .performAll _) => ∃ p, p.IsOpen ∧ Open ts p b
  | (b, .queueDialog _) => ∃ p, p.IsOpen ∧ Open ts p b
  | (b, .afterDialog) => Standing ts b ∧ (b.phase = .dialog ∨ b.isOver = true)
  | (b, .resumePhase) => Standing ts b ∧ b.phase = .dialog ∧ b.dialogs = []

theorem Due.calls (hcall : Calls s t) (hs : Due ts s) : Due ts t := by
  cases hcall with
  | start hqueue =>
      obtain ⟨dice, -, rfl⟩ := roll_eq_ok hqueue
      exact (hs.2.silent (hs.1 rfl) (by decide) rfl).round dice _
  | defend hphase _ _ =>
      have hb := hs.2.silent hphase (by decide) rfl
      exact ⟨hb.triggers, hb.resume, hb.dialogs, hb.outcome⟩
  | @defended b _ o hphase _ _ hdone =>
      have hb := hs.2.silent hphase (by decide) rfl
      have hpending : Silent ts { b with pending := some o } :=
        ⟨hb.triggers, hb.resume, hb.dialogs, hb.outcome⟩
      exact (hpending.executePending rfl hdone).standing (by decide) rfl
  | flee hphase _ _ =>
      have hb := hs.2.silent hphase (by decide) rfl
      exact ⟨hb.triggers, hb.resume, hb.dialogs, hb.outcome⟩
  | @caught b _ _ _ _ _ hroll _ hend =>
      obtain ⟨dice, -, rfl⟩ := roll_eq_ok hroll
      have hfailed : Silent ts
          (say { b with dice, pending := none } "Failed to escape!") :=
        ⟨hs.triggers, hs.resume, hs.dialogs, hs.outcome⟩
      exact (hfailed.endTurn hend).standing (by decide) rfl
  | target _ hphase =>
      have hb := hs.2.silent hphase (by decide) rfl
      exact ⟨hb.triggers, hb.resume, hb.dialogs, hb.outcome⟩
  | @targeted b _ o ids _ hphase hdone =>
      have hb := hs.2.silent hphase (by decide) rfl
      have hpending : Silent ts { b with pending := some { o with targets := ids } } :=
        ⟨hb.triggers, hb.resume, hb.dialogs, hb.outcome⟩
      exact (hpending.executePending rfl hdone).standing (by decide) rfl
  | say => exact ⟨_, hs.2.isOpen, hs.2.standing, rfl⟩
  | perform => exact ⟨_, hs.2.isOpen, hs.2.standing, rfl⟩
  | dismiss hdialogs _ =>
      have hopen := hs.2.dialog_or_isOver (by simp [hdialogs])
      exact ⟨hs.2.standing.setDialogs hopen _, hopen⟩
  | choose hdialogs _ _ =>
      have hopen := hs.2.dialog_or_isOver (by simp [hdialogs])
      exact ⟨hs.2.standing.setDialogs hopen _, hopen⟩
  | answer hdialogs _ _ =>
      have hopen := hs.2.dialog_or_isOver (by simp [hdialogs])
      exact ⟨_, hs.2.isOpen, hs.2.standing.setDialogs hopen _, rfl⟩
  | answered hdialogs _ _ hdone hend => exact hs.2.answered (by simp [hdialogs]) hdone hend
  | resume hdialogs hover => exact ⟨hs.1, hs.2.resolve_right (by simp [hover]), hdialogs⟩
  | resumeTurn _ _ => exact hs.1.resumed hs.2.1 hs.2.2
  | resumedTurn _ _ hdone => exact (hs.1.resumed hs.2.1 hs.2.2).dispatch_standing hdone
  | resumedNext _ _ hnext =>
      exact ((hs.1.resumed hs.2.1 hs.2.2).nextTurn hnext).standing (by simp [Battle.resumed]) rfl
  | turn hruns => exact hs.1.silent_of_isRunning hruns
  | turned hruns hdone =>
      have hb := hs.1.silent_of_isRunning hruns
      exact (hb.takesTurn hdone).standing hb
  | @trigger b c f fired _ _ hbegin hfired =>
      obtain ⟨fighters, dice, log, rfl⟩ := Acted.beginTurn hbegin
      refine ⟨.turnStart, .inl (by decide), ?_, stage_of_ne (by simp)⟩
      refine Silent.standing ⟨?_, hs.resume, hs.dialogs, hs.outcome⟩ (by simp) rfl
      rw [Trigger.Book.triggers_evaluate]
      exact hs.triggers
  | act hcurrent halive hbegin htriggers hend hover hdialog =>
      have hbegun : Begun _ _ _ := ⟨hcurrent, halive, _, hbegin, htriggers⟩
      rcases hs.undecided hbegun hend with ⟨rfl, -, -⟩ | he
      · exact (hs.begun hbegun).1.standing.silent hdialog hover
      · exact absurd he.isOver (by simp [hover])
  | enemy _ _ horder =>
      obtain ⟨dice, -, rfl⟩ := roll_eq_ok horder
      exact ⟨hs.triggers, hs.resume, hs.dialogs, hs.outcome⟩
  | dialog => exact hs
  | multi => exact hs
  | first => exact hs
  | rest hdone =>
      obtain ⟨p, hp, hopen⟩ := hs
      exact ⟨p, hp, hopen.happen hp (perform_happens _ hdone)⟩

theorem Due.reaches (hreaches : Reaches s t) (hs : Due ts s) : Due ts t := by
  induction hreaches with
  | refl => exact hs
  | tail _ hcall ih => exact ih.calls hcall

/-- Between commands a dialog lies over one phase and has something to say, or no phase is
interrupted and, unless the battle is over, nothing is left to be said. -/
structure Disciplined (b : Battle) : Prop where
  phase : b.phase ∈ [.start, .actionSelect, .targetSelect, .dialog, .victory, .defeat, .fled]
  interrupted : b.phase = .dialog →
    (∃ p ∈ [.start, .turnStart, .actionSelect, .targetSelect], b.resume = [p]) ∧ b.dialogs ≠ []
  resume : b.phase ≠ .dialog → b.resume = []
  dialogs : b.phase ≠ .dialog → b.isOver = false → b.dialogs = []

theorem Paused.disciplined (h : Paused ts b) : Disciplined b where
  phase := by
    rcases h.phase with hstart | hwaits
    · simp [hstart]
    · revert hwaits
      simp only [isRunning]
      cases b.phase <;> simp [Phase.isTerminal, Phase.isWaiting]
  interrupted hphase := ⟨h.standing.interrupted hphase, h.voiced hphase⟩
  resume := h.standing.resume
  dialogs := h.standing.dialogs

theorem Disciplined.paused (h : Disciplined b)
    (houtcome : b.outcome.isSome = true ↔ b.phase.IsVerdict) : Paused b.triggers.triggers b where
  standing :=
    { triggers := List.Subset.refl _
      interrupted := fun hphase => (h.interrupted hphase).1
      resume := h.resume
      dialogs := h.dialogs
      outcome := houtcome }
  voiced hphase := (h.interrupted hphase).2
  phase := by
    have hphase := h.phase
    simp only [isRunning]
    revert hphase
    cases b.phase <;> simp [Phase.isTerminal, Phase.isWaiting]

theorem Disciplined.apply {k : Command} (h : Disciplined b)
    (houtcome : b.outcome.isSome = true ↔ b.phase.IsVerdict) (hk : k.Fits b)
    (hok : k.apply b = .ok b') : Disciplined b' :=
  ((h.paused houtcome).apply hk hok).disciplined

/-- There is room for a dialog, unless one lies over the phase or the battle is over. -/
theorem Open.room {p : Phase} (h : Open ts p b) (hdepth : 1 ≤ b.config.maxPhaseDepth) :
    b.phase = .dialog ∨ b.isOver = true ∨ (b.resume.length : Int) < b.config.maxPhaseDepth := by
  by_cases hphase : b.phase = .dialog
  · exact .inl hphase
  · rw [h.standing.resume hphase]
    exact .inr (.inr hdepth)

/-- Commands that come to an end keep the dialogs in order: where they are not, a command failed and
they have not been in order since. On the way of a command that finds them in order a dialog always
finds room, and the end of a dialog a phase to return to. -/
theorem disciplined_or_derails {b₀ b₁ : Battle} {player : Option Character}
    {enemies : Option (List Enemy)} {ks : List Command} (hdepth : 1 ≤ b₀.config.maxPhaseDepth)
    (h₀ : b₀.assemble player enemies = .ok b₁) (hks : b₁.Admits ks) :
    (Disciplined (b₁.after ks) ∧ ∀ k : Command, k.Fits (b₁.after ks) →
      (∀ c, k.apply (b₁.after ks) = .ok c → Disciplined c) ∧ ∀ x,
        (∀ d, Reaches (b₁.after ks, .command k) (x, .queueDialog d) →
          x.phase = .dialog ∨ x.isOver = true ∨ (x.resume.length : Int) < x.config.maxPhaseDepth) ∧
        (Reaches (b₁.after ks, .command k) (x, .resumePhase) → x.resume ≠ [])) ∨
      Derails Disciplined b₁ ks := by
  refine (holds_or_derails (Paused.assemble h₀).disciplined ?_).imp_left ?_
  · intro pre k c hpre hdisciplined hok
    have hbefore : pre <+: ks := (List.prefix_append _ _).trans hpre
    have houtcome := (Intact.of_assemble h₀ hks hbefore).outcome trivial
    exact hdisciplined.apply houtcome (hks pre k hpre) hok
  · intro hdisciplined
    have hend := Intact.of_assemble h₀ hks (List.prefix_refl _)
    refine ⟨hdisciplined, fun k hk => ⟨fun c hok => ?_, fun x => ⟨fun d hreaches => ?_, ?_⟩⟩⟩
    · exact hdisciplined.apply (hend.outcome trivial) hk hok
    · obtain ⟨p, -, hopen⟩ :=
        Due.reaches hreaches ⟨hk, hdisciplined.paused (hend.outcome trivial)⟩
      exact hopen.room (by rwa [hend.config_of_reaches hreaches])
    · intro hreaches
      obtain ⟨hx, hphase, -⟩ :=
        Due.reaches hreaches ⟨hk, hdisciplined.paused (hend.outcome trivial)⟩
      obtain ⟨p, -, hresume⟩ := hx.interrupted hphase
      simp [hresume]

def unready : Battle :=
  create
    { Game.plain (.plain "hero") with
      enemies := [{ Enemy.plain "statue" with stats := .ofList [("MaxHP", 20)] }] }
    none ⟨[⟨"Speed", "Speed", "", "", 10, 1, 999⟩], [⟨"Pace", "Pace", "Speed", ""⟩],
      ⟨"1", "1", "0", "Speed"⟩⟩ {} {}

def bargain : Dialog :=
  ⟨"", "", [.option "yes" "" (some (.multi [.damage 20 (some "slime"), .spawn "statue"]))]⟩

def bargained : List Command := [.start, .queueDialog bargain, .chooseOption "yes"]

/-- The statue cannot appear; the dialog is gone, its phase stays. -/
theorem unready_runs :
    ∃ b₁ c, unready.assemble none (some [.plain "slime"]) = .ok b₁ ∧ b₁.Admits bargained ∧
      b₁.after bargained = c ∧ c.phase = .dialog ∧ c.dialogs = [] ∧ c.resume = [.actionSelect] ∧
      c.enemies = [] ∧ c.outcome = none := by
  have hok : ((do
      let b₁ ← unready.assemble none (some [.plain "slime"])
      let c ← b₁.startWithin 2
      let d ← c.queueDialog bargain
      return (b₁.phase, d)).toOption.bind fun x =>
        (Fallible.failure? (x.2.chooseOption "yes")).map fun h : Halt Error Battle =>
          (x.1, h.left.phase, h.left.dialogs.length, h.left.resume, h.left.enemies.length,
            h.left.outcome.isSome)) =
      some (.start, .dialog, 0, [.actionSelect], 0, false) := by
    decide +kernel
  obtain ⟨⟨phase, d⟩, h, hfails⟩ := Option.bind_eq_some_iff.1 hok
  simp only [Fallible.toOption_eq_some, Fallible.bind_eq_ok, Fallible.pure_eq, Except.ok.injEq,
    Prod.mk.injEq] at h
  obtain ⟨b₁, h₁, c, hstart, _, hqueue, rfl, rfl⟩ := h
  obtain ⟨halt, hhalt, hfound⟩ := Option.map_eq_some_iff.1 hfails
  simp only [Prod.mk.injEq] at hfound
  obtain ⟨hfirst, hfound⟩ := hfound
  obtain ⟨hphase, hdialogs, hresume, henemies, houtcome⟩ := hfound
  have hafter : b₁.after bargained = halt.left := by
    have hstart := start_of_startWithin hstart
    have hhalt := Fallible.eq_error_of_failure? hhalt
    simp only [after, bargained, List.foldl_cons, List.foldl_nil, Command.leaves, Command.apply,
      hstart, hqueue, hhalt]
  refine ⟨b₁, halt.left, h₁, admits_of_start hfirst (by simp), hafter, hphase, ?_, hresume, ?_, ?_⟩
  · exact List.length_eq_zero_iff.1 hdialogs
  · exact List.length_eq_zero_iff.1 henemies
  · simpa using houtcome

theorem disciplined_or_derails_unready :
    ∃ b₁, unready.assemble none (some [.plain "slime"]) = .ok b₁ ∧ b₁.Admits bargained ∧
      Derails Disciplined b₁ bargained := by
  obtain ⟨b₁, c, h₁, hks, rfl, hphase, hdialogs, -⟩ := unready_runs
  refine ⟨b₁, h₁, hks, (disciplined_or_derails (by decide) h₁ hks).resolve_left ?_⟩
  rintro ⟨hdisciplined, -⟩
  exact (hdisciplined.interrupted hphase).2 hdialogs

/-- After the answer that failed the targets are called off, which does nothing: a dialog lies over
the phase with nothing to say. -/
theorem not_disciplined_unready :
    ∃ b₁ c, unready.assemble none (some [.plain "slime"]) = .ok b₁ ∧
      1 ≤ unready.config.maxPhaseDepth ∧ b₁.Admits (bargained ++ [.cancelTargets]) ∧
      Command.apply (b₁.after bargained) .cancelTargets = .ok c ∧ c.phase = .dialog ∧
      c.dialogs = [] := by
  obtain ⟨b₁, c, h₁, hks, hc, hphase, hdialogs, -⟩ := unready_runs
  refine ⟨b₁, c, h₁, by decide, hks.concat (by rintro ⟨⟩), ?_, hphase, hdialogs⟩
  simp [hc, Command.apply, cancelTargets, hphase]

end Skirmish.Battle

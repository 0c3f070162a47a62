import Skirmish.Proofs.Battle.Interlude

namespace Skirmish.Battle

open Fallible (Carries)

variable {r : Stat.Rules} {c : Config} {b b' d : Battle}

theorem start_ahead (hdepth : 1 ≤ c.maxPhaseDepth) (hb : Calm r c b) (hphase : b.phase ≠ .dialog)
    (h : b.start = .ok b') : Calm r c b' ∧ Carries id b'.ahead b.hush.start := by
  obtain ⟨⟨queue, d⟩, hroll, h⟩ := Fallible.bind_eq_ok.1 h
  have hagain : b.hush.rollQueue = .ok (queue, d.hush) := roll_hush hroll
  obtain ⟨dice, -, rfl⟩ := roll_eq_ok hroll
  rw [start, hagain, Fallible.ok_bind]
  refine run_ahead hdepth ?_ ?_ h
  · exact ⟨hb.upToDate.of_same ⟨rfl, rfl, rfl, rfl⟩, hb.dialogs, hb.triggers,
      .inl ⟨by simp, hb.resume_nil hphase⟩⟩
  · simp

theorem attemptFlee_ahead (hdepth : 1 ≤ c.maxPhaseDepth) (hb : Calm r c b)
    (hphase : b.phase ≠ .dialog) (h : b.attemptFlee = .ok b') :
    Calm r c b' ∧ Carries id b'.ahead (b.hush.attemptFlee) := by
  have hconfig : b.hush.config = b.config := rfl
  simp only [attemptFlee, hconfig] at h ⊢
  obtain ⟨chance, hchance, h⟩ := Fallible.bind_eq_ok.1 h
  obtain ⟨⟨o, d⟩, hroll, h⟩ := Fallible.bind_eq_ok.1 h
  rw [Fallible.leaving_eq_ok.1 hchance, Fallible.leaving_ok, Fallible.ok_bind, roll_hush hroll,
    Fallible.ok_bind]
  obtain ⟨dice, -, rfl⟩ := roll_eq_ok hroll
  have hafter : ∀ d, SameField b d → AllUpToDate r c d := fun d => hb.upToDate.of_same
  split at h
  next hfled =>
    cases h
    rw [if_pos hfled]
    refine Echo.ahead hb hphase ?_ (hafter _ ⟨rfl, rfl, rfl, rfl⟩)
    exact (enter_echo (p := .fled) (by simp)).of_beside rfl rfl (fun _ => rfl) id
  next hfailed =>
    rw [if_neg hfailed]
    obtain ⟨d, hend, h⟩ := Fallible.bind_eq_ok.1 h
    have hup := Coherent.lasting.endTurn hend (hafter _ ⟨rfl, rfl, rfl, rfl⟩)
    have hecho := (endTurn_echo hend).of_beside (b := b) rfl rfl id id
    exact hecho.run_ahead hdepth hb hphase hup h

theorem selectAction_ahead {o : Order} (hdepth : 1 ≤ c.maxPhaseDepth) (hb : Calm r c b)
    (hphase : b.phase ≠ .dialog) (h : b.selectAction o = .ok b') :
    Calm r c b' ∧ Carries id b'.ahead (b.hush.selectAction o) := by
  have hcurrent : b.hush.current? = b.current? := rfl
  have hpending : Calm r c { b with pending := some o } :=
    ⟨hb.upToDate.of_same ⟨rfl, rfl, rfl, rfl⟩, hb.dialogs, hb.triggers, hb.phase⟩
  simp only [selectAction, hush_phase hphase, hcurrent] at h ⊢
  split at h
  next hskip =>
    cases h
    rw [if_pos hskip]
    exact Echo.ahead hb hphase (.refl b) hb.upToDate
  next hskip =>
    rw [if_neg hskip]
    split at h
    next => cases h
    next =>
      split at h
      next hother =>
        cases h
        rw [if_pos hother]
        exact Echo.ahead hb hphase (.refl b) hb.upToDate
      next hother =>
        rw [if_neg hother]
        split at h
        next =>
          obtain ⟨d, hexecute, h⟩ := Fallible.bind_eq_ok.1 h
          have hup := Coherent.lasting.executePending hexecute hpending.upToDate
          exact (executePending_echo hexecute).run_ahead hdepth hpending hphase hup h
        next =>
          have hagain : hush { b with pending := some o } =
              { b.hush with pending := some o, phase := b.phase } := by
            simp [hush, hphase]
          exact hagain ▸ attemptFlee_ahead hdepth hpending hphase h
        next =>
          cases h
          refine Echo.ahead hpending hphase (enter_echo (p := .targetSelect) (by simp)) ?_
          exact hpending.upToDate.of_same ⟨rfl, rfl, rfl, rfl⟩

theorem selectTargets_ahead {ids : List String} (hdepth : 1 ≤ c.maxPhaseDepth) (hb : Calm r c b)
    (hphase : b.phase ≠ .dialog) (h : b.selectTargets ids = .ok b') :
    Calm r c b' ∧ Carries id b'.ahead (b.hush.selectTargets ids) := by
  have hpending : b.hush.pending = b.pending := rfl
  simp only [selectTargets, hush_phase hphase, hpending] at h ⊢
  split at h
  next =>
    cases h
    exact Echo.ahead hb hphase (.refl b) hb.upToDate
  next o _ =>
    split at h
    next hskip =>
      cases h
      rw [if_pos hskip]
      exact Echo.ahead hb hphase (.refl b) hb.upToDate
    next hskip =>
      rw [if_neg hskip]
      obtain ⟨d, hexecute, h⟩ := Fallible.bind_eq_ok.1 h
      have hup := Coherent.lasting.executePending hexecute
        (hb.upToDate.of_same ⟨rfl, rfl, rfl, rfl⟩)
      have hecho := (executePending_echo hexecute).of_beside (b := b) rfl rfl id id
      exact hecho.run_ahead hdepth hb hphase hup h

theorem cancelTargets_ahead (hb : Calm r c b) (hphase : b.phase ≠ .dialog) :
    Calm r c b.cancelTargets ∧
      Carries id b.cancelTargets.ahead (Command.cancelTargets.apply b.hush) := by
  have hup := Coherent.lasting.cancelTargets hb.upToDate
  rw [Command.apply]
  simp only [cancelTargets, hush_phase hphase] at hup ⊢
  split
  next => exact Echo.ahead hb hphase (.refl b) hb.upToDate
  next hwaits =>
    rw [if_neg hwaits] at hup
    refine Echo.ahead hb hphase ?_ hup
    exact (enter_echo (p := .actionSelect) (by simp)).of_beside rfl rfl id id

/-- The commands that lead a battle on, as opposed to those that answer dialogs. -/
def Command.IsMove : Command → Prop
  | start | selectAction _ | selectTargets _ | cancelTargets => True
  | _ => False

theorem apply_ahead {m : Command} (hm : m.IsMove) (hdepth : 1 ≤ c.maxPhaseDepth)
    (hb : Calm r c b) (hphase : b.phase ≠ .dialog) (h : m.apply b = .ok b') :
    Calm r c b' ∧ Carries id b'.ahead (m.apply b.hush) := by
  cases m with
  | start => exact start_ahead hdepth hb hphase h
  | selectAction o => exact selectAction_ahead hdepth hb hphase h
  | selectTargets ids => exact selectTargets_ahead hdepth hb hphase h
  | cancelTargets =>
      cases h
      exact cancelTargets_ahead hb hphase
  | _ => exact hm.elim

theorem Lasting.resumeTurn {P : Battle → Prop} (h : Lasting P) (hok : b.resumeTurn = .ok b')
    (hb : P b) : P b' := by
  simp only [Battle.resumeTurn] at hok
  split at hok
  · exact h.nextTurn hok hb
  · exact h.dispatch hok hb

theorem resumePhase_eq (h : b.resume = [.turnStart]) :
    b.resumePhase = resumeTurn { b with phase := .turnStart, resume := [] } >>= run := by
  simp only [resumePhase, resumeTurn, h, List.headD_cons, List.tail_cons, ne_eq, not_true_eq_false,
    if_false]
  cases current? { b with phase := .turnStart, resume := [] } <;> rfl

/-- The last dialog gone, the interrupted turn goes on as in the hushed battle. -/
theorem dismissDialog_ahead (hdepth : 1 ≤ c.maxPhaseDepth) (hb : Calm r c b)
    (hphase : b.phase = .dialog) (h : b.dismissDialog = .ok b') :
    Calm r c b' ∧ Carries id b'.ahead b.ahead := by
  obtain ⟨hne, -⟩ | ⟨-, hresume, hnonempty⟩ := hb.phase
  · exact absurd hphase hne
  obtain ⟨d, rest, hdialogs⟩ := List.exists_cons_of_ne_nil hnonempty
  have hplain : ∀ e ∈ d :: rest, e.options = [] := hdialogs ▸ hb.dialogs
  have hover : isOver { b with dialogs := rest } = false := by
    simp [isOver, hphase, Phase.isTerminal]
  simp only [dismissDialog, hdialogs, hplain d (List.mem_cons_self ..), List.isEmpty_nil,
    if_true, afterDialog, hover, Bool.or_false] at h
  split at h
  next hmore =>
    cases h
    have hrest : rest ≠ [] := by simpa using hmore
    refine ⟨⟨hb.upToDate.of_same ⟨rfl, rfl, rfl, rfl⟩, fun e he => hplain e (.tail d he),
      hb.triggers, .inr ⟨hphase, hresume, hrest⟩⟩, .refl _⟩
  next =>
    rw [resumePhase_eq (b := { b with dialogs := rest }) hresume] at h
    obtain ⟨d, hturn, h⟩ := Fallible.bind_eq_ok.1 h
    have hcalm : Calm r c { b with dialogs := rest, phase := .turnStart, resume := [] } :=
      ⟨hb.upToDate.of_same ⟨rfl, rfl, rfl, rfl⟩, fun e he => hplain e (.tail _ he), hb.triggers,
        .inl ⟨by simp, rfl⟩⟩
    have hhush : hush { b with dialogs := rest, phase := .turnStart, resume := [] } = b.hush := by
      simp [hush, hphase, hresume]
    have hup := Coherent.lasting.resumeTurn hturn hcalm.upToDate
    obtain ⟨hb', hrun⟩ := (resumeTurn_echo hturn).run_ahead hdepth hcalm (by simp) hup h
    refine ⟨hb', ?_⟩
    rw [hhush] at hrun
    rwa [show b.ahead = b.hush.resumeTurn >>= Battle.run from if_pos hphase]

/-- Dismisses a dialog as `dismissDialog` does, but takes only so many turns after it. -/
def dismissWithin (b : Battle) (n : Nat) : Result Battle :=
  match b.dialogs with
  | [] => .ok b
  | d :: rest =>
    if !d.options.isEmpty then .ok b
    else if !rest.isEmpty || b.isOver then .ok (notify { b with dialogs := rest })
    else if b.resume = [.turnStart] then do
      let b ← resumeTurn { b with dialogs := rest, phase := .turnStart, resume := [] }
      b.runWithin n
    else { b with dialogs := rest }.resumePhase

theorem dismissDialog_of_dismissWithin {n : Nat} (h : b.dismissWithin n = .ok b') :
    b.dismissDialog = .ok b' := by
  cases hdialogs : b.dialogs with
  | nil =>
      simp only [dismissWithin, hdialogs] at h
      simpa only [dismissDialog, hdialogs] using h
  | cons d rest =>
      have hover : isOver { b with dialogs := rest } = b.isOver := rfl
      simp only [dismissWithin, hdialogs] at h
      simp only [dismissDialog, hdialogs, afterDialog, hover]
      cases hoptions : d.options.isEmpty with
      | false => simpa [hoptions] using h
      | true =>
          simp only [hoptions, Bool.not_true, Bool.false_eq_true, if_false, if_true] at h ⊢
          split at h
          next hwaits => rw [if_pos hwaits, h]
          next hwaits =>
            rw [if_neg hwaits]
            split at h
            next hresume =>
              obtain ⟨e, hturn, h⟩ := Fallible.bind_eq_ok.1 h
              rw [resumePhase_eq (b := { b with dialogs := rest }) hresume]
              exact Fallible.bind_eq_ok.2 ⟨e, hturn, run_of_runWithin h⟩
            next => exact h

inductive Dismissed : Battle → Battle → Prop
  | none {b : Battle} (h : b.phase ≠ .dialog) : Dismissed b b
  | more {b d b' : Battle} (h : b.phase = .dialog) (hd : b.dismissDialog = .ok d)
      (hrest : Dismissed d b') : Dismissed b b'

/-- Commands one after the other, the dialogs after each of them dismissed. -/
inductive Attended : Battle → List Command → Battle → Prop
  | nil (b : Battle) : Attended b [] b
  | cons {b d e b' : Battle} {m : Command} {ms : List Command} (h : m.apply b = .ok d)
      (hd : Dismissed d e) (hrest : Attended e ms b') : Attended b (m :: ms) b'

theorem Dismissed.ahead (h : Dismissed b b') (hdepth : 1 ≤ c.maxPhaseDepth) (hb : Calm r c b) :
    Calm r c b' ∧ b'.phase ≠ .dialog ∧ b.ahead = .ok b'.hush := by
  induction h with
  | none hphase => exact ⟨hb, hphase, ahead_of_ne hphase⟩
  | more hphase hd _ ih =>
      obtain ⟨hcalm, hahead⟩ := dismissDialog_ahead hdepth hb hphase hd
      obtain ⟨hb', hphase', hrest⟩ := ih hcalm
      exact ⟨hb', hphase', hahead _ hrest⟩

theorem Attended.follow {ms : List Command} (h : Attended b ms b') (hms : ∀ m ∈ ms, m.IsMove)
    (hdepth : 1 ≤ c.maxPhaseDepth) (hb : Calm r c b) (hphase : b.phase ≠ .dialog) :
    b'.phase ≠ .dialog ∧ b.hush.follow ms = .ok b'.hush := by
  induction h with
  | nil b => exact ⟨hphase, rfl⟩
  | cons happly hd _ ih =>
      obtain ⟨hd', hagain⟩ := apply_ahead (hms _ (List.mem_cons_self ..)) hdepth hb hphase happly
      obtain ⟨he, hphase', hahead⟩ := hd.ahead hdepth hd'
      obtain ⟨hend, hrest⟩ := ih (fun m hm => hms m (.tail _ hm)) he hphase'
      exact ⟨hend, by rw [Battle.follow, hagain _ hahead, id, Fallible.ok_bind, hrest]⟩

section

variable {player : Option Character} {enemies : Option (List Enemy)} {scene : Scene}

theorem create_hush (game : Game) (rules : Stat.Rules) (config : Config) (dice : Dice) :
    (create game (some scene) rules config dice).hush =
      create game (some scene.hushed) rules config dice := by
  have hbook : Trigger.Book.setTriggers {} (scene.triggers.map Trigger.hushed) =
      (Trigger.Book.setTriggers {} scene.triggers).hushed :=
    Trigger.Book.setTriggers_hushed {} scene.triggers
  simp only [create, hush, Option.map_some, Option.getD_some, Scene.hushed, List.isEmpty_map, hbook]
  cases scene.triggers.isEmpty <;> rfl

theorem assemble_hush (hphase : b.phase = .start) (h : b.assemble player enemies = .ok b') :
    b.hush.assemble player enemies = .ok b'.hush := by
  have hscene : b.hush.sceneEnemies = b.sceneEnemies := by
    simp only [sceneEnemies, hush]
    cases b.scene <;> rfl
  obtain ⟨f, hf, h⟩ := Fallible.bind_eq_ok.1 h
  obtain ⟨d, hd, h⟩ := Fallible.bind_eq_ok.1 h
  refine Fallible.bind_eq_ok.2 ⟨f, Fallible.leaving_eq_ok.2 (Fallible.leaving_eq_ok.1 hf), ?_⟩
  refine Fallible.bind_eq_ok.2 ⟨d.hush, ?_, ?_⟩
  · rw [hscene, ← (enrollAll_apart [] _).hush hd]
    simp [hush, setFighter, hphase]
  · have hbook : ∀ s : Scene, d.hush.triggers.setTriggers s.hushed.triggers =
        (d.triggers.setTriggers s.triggers).hushed :=
      fun s => Trigger.Book.setTriggers_hushed d.triggers s.triggers
    have hdscene : d.hush.scene = d.scene.map Scene.hushed := rfl
    cases h
    rw [hdscene]
    cases d.scene with
    | none => rfl
    | some s =>
        simp only [Option.map_some, hbook]
        rfl

theorem assemble_calm (hscene : b.scene = some scene) (hplain : ∀ t ∈ scene.triggers, t.event.Plain)
    (h : b.assemble player enemies = .ok b') :
    Calm b.rules b.config b' ∧ b'.phase = .start := by
  have hup : AllUpToDate b.rules b.config b' := Coherent.assemble h
  obtain ⟨f, -, h⟩ := Fallible.bind_eq_ok.1 h
  obtain ⟨d, hd, h⟩ := Fallible.bind_eq_ok.1 h
  have hsame := (enrollAll_apart [] _).sameAside hd
  cases h
  refine ⟨⟨hup, ?_, ?_, .inl ⟨by rintro ⟨⟩, hsame.resume⟩⟩, rfl⟩
  · have hdialogs : d.dialogs = [] := hsame.dialogs
    intro e he
    exact absurd (hdialogs ▸ he) List.not_mem_nil
  · have hdscene : d.scene = some scene := hsame.scene.trans hscene
    intro t ht
    simp only [notify, say, hdscene] at ht
    obtain ⟨t', ht', id, rfl⟩ := Trigger.Book.exists_of_mem_assignIds ht
    exact hplain t' ht'

end

/-- Two battles agree in all that combat is about. -/
structure Agree (b b' : Battle) : Prop where
  phase : b.phase = b'.phase
  outcome : b.outcome = b'.outcome
  fighters : b.fighters = b'.fighters
  origins : b.origins = b'.origins
  queue : b.queue = b'.queue
  index : b.index = b'.index
  turn : b.turn = b'.turn
  pending : b.pending = b'.pending
  log : b.log = b'.log
  fired : b.triggers.fired = b'.triggers.fired
  dice : b.dice = b'.dice

/-- After every command and the dismissals that it asks for, a battle agrees with the battle of the
same scene without dialogs that was given the same commands. -/
theorem agree_of_attended {game : Game} {scene : Scene} {rules : Stat.Rules} {config : Config}
    {dice : Dice} {player : Option Character} {enemies : Option (List Enemy)} {ms : List Command}
    {b₀ b : Battle} (hdepth : 1 ≤ config.maxPhaseDepth)
    (hplain : ∀ t ∈ scene.triggers, t.event.Plain) (hms : ∀ m ∈ ms, m.IsMove)
    (h₀ : (create game (some scene) rules config dice).assemble player enemies = .ok b₀)
    (h : Attended b₀ ms b) :
    ∃ c₀ c, (create game (some scene.hushed) rules config dice).assemble player enemies = .ok c₀ ∧
      c₀.follow ms = .ok c ∧ Agree b c := by
  obtain ⟨hcalm, hstart⟩ := assemble_calm rfl hplain h₀
  have hne : b₀.phase ≠ .dialog := by simp [hstart]
  obtain ⟨hphase, hfollow⟩ := h.follow hms hdepth hcalm hne
  refine ⟨b₀.hush, b.hush, ?_, hfollow, ?_⟩
  · rw [← create_hush]
    exact assemble_hush rfl h₀
  · exact ⟨(hush_phase hphase).symm, rfl, rfl, rfl, rfl, rfl, rfl, rfl, rfl, rfl, rfl⟩

def ambush : Scene :=
  .plain [⟨none, "turn == 1", true, none, .multi [.dialog "Beware!" none [], .damage 5 none]⟩]

theorem agree_of_attended_ambush :
    ∃ b₀ b, (plain (some ambush)).assemble none (some [.plain "slime"]) = .ok b₀ ∧
      Attended b₀ [.start] b ∧
      ∃ c₀ c, (plain (some ambush.hushed)).assemble none (some [.plain "slime"]) = .ok c₀ ∧
        c₀.follow [.start] = .ok c ∧ Agree b c := by
  have hok : (do
      let b₀ ← (plain (some ambush)).assemble none (some [.plain "slime"])
      let d ← b₀.startWithin 2
      let b ← d.dismissWithin 0
      return (d.phase, b.phase)).toOption = some (.dialog, .actionSelect) := by
    decide +kernel
  obtain ⟨phases, h, hphases⟩ := Fallible.exists_eq_ok_and (f := id) (by simpa using hok)
  simp only [Fallible.bind_eq_ok, Except.ok.injEq] at h
  obtain ⟨b₀, h₀, d, hstart, b, hdismiss, rfl⟩ := h
  obtain ⟨hdialog, hselect⟩ : d.phase = .dialog ∧ b.phase = .actionSelect := by
    simpa using hphases
  have hplain : ∀ t ∈ ambush.triggers, t.event.Plain := by
    simp [ambush, Scene.plain, Event.Plain, Event.PlainAll]
  have hend : Dismissed b b := .none (by simp [hselect])
  have hattended : Attended b₀ [.start] b :=
    .cons (start_of_startWithin hstart)
      (.more hdialog (dismissDialog_of_dismissWithin hdismiss) hend) (.nil b)
  have hmoves : ∀ m ∈ [Command.start], m.IsMove := by simp [Command.IsMove]
  exact ⟨b₀, b, h₀, hattended, agree_of_attended (by decide) hplain hmoves h₀ hattended⟩

end Skirmish.Battle

import Skirmish.Proofs.Battle.Discipline
import Skirmish.Proofs.Battle.Lead
import Skirmish.Proofs.Battle.Tactics

namespace Skirmish.Battle

variable {ts : List Trigger} {p : String} {b b' d : Battle} {f : Fighter}

def Awaits (p : String) (b : Battle) : Prop := (b.queue[b.index]?).map (·.id) = some p

theorem Awaits.current? (h : Awaits p b) : b.current? = b.fighter? p := by
  obtain ⟨e, he, rfl⟩ := Option.map_eq_some_iff.1 h
  rw [Battle.current?, he, Option.bind_some]

theorem Awaits.onward (h : Awaits p b) (honward : Onward b b') : Awaits p b' := by
  obtain ⟨e, he, rfl⟩ := Option.map_eq_some_iff.1 h
  obtain ⟨more, hmore⟩ := honward.queue
  obtain ⟨hlt, -⟩ := List.getElem?_eq_some_iff.1 he
  rw [Awaits, honward.index, ← hmore, List.getElem?_append_left hlt, he, Option.map_some]

theorem awaits_of_current? {P : Fighter → Prop} (hb : b.fighters.Every P)
    (hf : b.current? = some f) : Awaits f.id b := by
  obtain ⟨e, he, hfound⟩ := Option.bind_eq_some_iff.1 hf
  rw [Awaits, he, Option.map_some, (hb e.id f hfound).1]

/-- A waiting battle is contested; an order is waited for from the lead, and with targets to come
the order is that of the lead and takes targets. -/
structure Live (p : String) (b : Battle) : Prop where
  contested : b.phase.isWaiting = true → b.stage ≠ .start → b.Contested
  turn : b.stage = .actionSelect ∨ b.stage = .targetSelect → Awaits p b
  order : b.stage = .targetSelect →
    ∃ o, b.pending = some o ∧ (o.kind = .skill ∨ o.kind = .item) ∧ o.actorId = p

theorem live_of_not_isWaiting (h : b.phase.isWaiting = false) : Live p b := by
  have hne : b.phase ≠ .dialog ∧ b.phase ≠ .actionSelect ∧ b.phase ≠ .targetSelect := by
    simpa [Phase.isWaiting, and_assoc, and_comm, and_left_comm] using h
  refine ⟨by simp [h], fun hstage => ?_, fun hstage => ?_⟩
  · rw [stage_of_ne hne.1] at hstage
    exact (hstage.elim hne.2.1 hne.2.2).elim
  · rw [stage_of_ne hne.1] at hstage
    exact absurd hstage hne.2.2

theorem Decided.live (h : Decided ts b) : Live p b := by
  refine live_of_not_isWaiting ?_
  rcases h.phase with hphase | hphase
  all_goals rw [hphase]; rfl

theorem ComesTo.live {q : Phase} (h : ComesTo ts q b) (hq : q.isWaiting = false) : Live p b := by
  rcases h with ⟨-, rfl⟩ | h
  · exact live_of_not_isWaiting hq
  · exact h.live

theorem Contested.congr (h : b.Contested) (hfighters : b'.fighters = b.fighters) :
    b'.Contested := by
  rw [Contested, players, enemies, hfighters]
  exact h

theorem Live.congr (h : Live p b) (hstage : b'.stage = b.stage)
    (hwaits : b'.phase.isWaiting = true → b'.stage ≠ .start → b.phase.isWaiting = true)
    (hfighters : b'.fighters = b.fighters) (hqueue : b'.queue = b.queue)
    (hindex : b'.index = b.index) (hpending : b'.pending = b.pending) : Live p b' where
  contested hwaiting hne :=
    (h.contested (hwaits hwaiting hne) (hstage ▸ hne)).congr hfighters
  turn := by
    rw [hstage, Awaits, hqueue, hindex]
    exact h.turn
  order := by
    rw [hstage, hpending]
    exact h.order

theorem dispatch_live (hs : Silent ts b) (hled : Led p b) (hcontested : b.Contested)
    (hcurrent : b.current? = some f) (hok : b.dispatch f = .ok b') : Live p b' := by
  rcases hs.dispatch hok with hend | ⟨-, hplayer, rfl⟩
  · exact hend.live rfl
  · obtain ⟨id, hid⟩ := current?_eq_some hcurrent
    have hawaits : Awaits p b := hled.fighter? hid hplayer ▸ awaits_of_current? hled hcurrent
    have hstage : (b.enter .actionSelect).stage = .actionSelect := stage_of_ne (by rintro ⟨⟩)
    refine ⟨fun _ _ => hcontested.congr rfl, fun _ => hawaits, fun htarget => ?_⟩
    rw [hstage] at htarget
    cases htarget

theorem Begun.onward (h : Begun b f d) : Onward b d := by
  obtain ⟨-, -, c, hbegin, htriggers⟩ := h
  have hbegin := Onward.beginTurn hbegin
  exact Onward.trans ⟨hbegin.index, hbegin.queue, hbegin.fighters⟩ (.checkTriggers htriggers)

theorem Begun.led (h : Begun b f d) (hled : Led p b) : Led p d := by
  obtain ⟨hcurrent, -, c, hbegin, htriggers⟩ := h
  obtain ⟨id, hid⟩ := current?_eq_some hcurrent
  have hturn : Led p { b with phase := .turnStart } := hled
  have hc := Led.lasting.beginTurn (b := { b with phase := .turnStart }) hid hbegin hturn
  exact Led.lasting.checkTriggers htriggers hc

theorem Begun.current? (h : Begun b f d) (hled : Led p b) :
    d.current? = some ((d.fighter? f.id).getD f) := by
  obtain ⟨g, hfound, hcurrent⟩ := h.onward.current? hled h.1
  rw [hcurrent, hfound, Option.getD_some]

theorem TakesTurn.live (hs : Silent ts b) (hled : Led p b) (hturn : TakesTurn ts b b') :
    Live p b' := by
  cases hturn with
  | pass _ hnext =>
      have hpassed := Silent.nextTurn (b := { b with phase := .turnStart })
        ⟨hs.triggers, hs.resume, hs.dialogs, hs.outcome⟩ hnext
      exact hpassed.live rfl
  | decide hdecided => exact hdecided.live
  | @interrupt f d _ hd _ _ hcontested hnotify =>
      have hstage : b'.stage = .turnStart := by rw [← hd.stage, hnotify]; rfl
      refine ⟨fun _ _ => hnotify ▸ hcontested.congr rfl, fun hselect => ?_, fun htarget => ?_⟩
      · simp [hstage] at hselect
      · simp [hstage] at htarget
  | act hbegun hd _ hcontested hdispatch =>
      exact dispatch_live hd (hbegun.led hled) hcontested (hbegun.current? hled) hdispatch

theorem run_live (h : Standing ts b ∧ Voiced b) (hled : Led p b) (hlive : Live p b)
    (hok : b.run = .ok b') : Live p b' := by
  have hstep : ∀ c c', (Standing ts c ∧ Voiced c) ∧ Led p c ∧ Live p c → c.isRunning = true →
      c.startTurn = .ok c' → (Standing ts c' ∧ Voiced c') ∧ Led p c' ∧ Live p c' := by
    rintro c c' ⟨hc, hled, -⟩ hruns hturn
    have hs := hc.1.silent_of_isRunning hruns
    have htakes := hs.takesTurn hturn
    exact ⟨htakes.standing hs, Led.lasting.startTurn hturn hled, htakes.live hs hled⟩
  exact (run_induction hstep hok ⟨h, hled, hlive⟩).1.2.2

theorem ComesTo.run_live {q : Phase} (h : ComesTo ts q b) (hq : q.isWaiting = false)
    (hover : q.isTerminal = false) (hled : Led p b) (hok : b.run = .ok b') : Live p b' := by
  refine Battle.run_live (h.standing ?_ hover) hled (h.live hq) hok
  rintro rfl
  cases hq

theorem Live.resumePhase (h : Live p b) (hb : Standing ts b) (hled : Led p b)
    (hphase : b.phase = .dialog) (hdialogs : b.dialogs = []) (hok : b.resumePhase = .ok b') :
    Live p b' := by
  have hwaiting : b.phase.isWaiting = true := by simp [hphase, Phase.isWaiting]
  have hstage : b.stage = b.resume.headD .start := stage_of_dialog hphase
  rcases resumePhase_cases hok with ⟨hne, rfl⟩ | ⟨heq, c, hrun, hcase⟩
  · refine h.congr ?_ (fun _ _ => hwaiting) rfl rfl rfl rfl
    obtain ⟨q, hq, hresume⟩ := hb.interrupted hphase
    rw [hstage, stage_of_ne]
    · rfl
    · simp only [notify, hresume, List.headD_cons]
      rintro rfl
      simp [Phase.interruptible] at hq
  · have hcontested : b.resumed.Contested :=
      (h.contested hwaiting (by rw [hstage, heq]; simp)).congr rfl
    have hsilent := hb.resumed hphase hdialogs
    rcases hcase with ⟨-, hnext⟩ | ⟨f, hcurrent, hdispatch⟩
    · have hc := Led.lasting.nextTurn hnext hled
      exact (hsilent.nextTurn hnext).run_live rfl rfl hc hrun
    · have hc := Led.lasting.dispatch hdispatch hled
      refine run_live (hsilent.dispatch_standing hdispatch) hc ?_ hrun
      exact dispatch_live hsilent hled hcontested hcurrent hdispatch

theorem Live.afterDialog (h : Live p b) (hb : Standing ts b) (hled : Led p b)
    (hopen : b.phase = .dialog ∨ b.isOver = true) (hok : b.afterDialog = .ok b') : Live p b' := by
  rcases afterDialog_cases hok with ⟨-, rfl⟩ | ⟨hdialogs, hover, hresume⟩
  · exact h.congr rfl (fun hwaiting _ => hwaiting) rfl rfl rfl rfl
  · exact h.resumePhase hb hled (hopen.resolve_right (by simp [hover])) hdialogs hresume

theorem Live.attemptFlee (hs : Silent ts b) (hled : Led p b) (hok : b.attemptFlee = .ok b') :
    Live p b' := by
  rcases attemptFlee_cases hok with ⟨dice, log, notices, rfl⟩ | ⟨dice, log, c, hend, hrun⟩
  · exact live_of_not_isWaiting rfl
  · have hled' : Led p { b with pending := none, dice, log } := hled
    have hc := Silent.endTurn (b := { b with pending := none, dice, log })
      ⟨hs.triggers, hs.resume, hs.dialogs, hs.outcome⟩ hend
    exact hc.run_live rfl rfl (Led.lasting.endTurn hend hled') hrun

/-- What an answer brings may fell a side, which is found out before the dialog is left. -/
theorem Live.answered {rest : List Dialog} {e : Event} {x y : Battle} (h : Live p b)
    (hb : Paused ts b) (hdialogs : b.dialogs ≠ [])
    (hperform : Battle.perform { b with dialogs := rest } e = .ok x)
    (hend : x.checkEnd = .ok y) : Live p y := by
  have hopen := hb.dialog_or_isOver hdialogs
  have hhappen := perform_happens e hperform
  have hrest : Open ts b.stage { b with dialogs := rest } :=
    ⟨hb.standing.setDialogs hopen rest, rfl⟩
  have hx := hrest.happen hb.isOpen hhappen
  rcases hx.standing.checkEnd hend with ⟨rfl, hcase⟩ | ⟨-, hdecided⟩
  · have honward : Onward { b with dialogs := rest } y := .happen hhappen
    refine ⟨fun hwaiting _ => ?_, fun hselect => ?_, fun htarget => ?_⟩
    · refine hcase.resolve_left fun houtcome => ?_
      rcases hx.standing.outcome.1 houtcome with heq | heq
      all_goals simp [heq, Phase.isWaiting] at hwaiting
    · exact Awaits.onward (b := { b with dialogs := rest }) (h.turn (hx.stage ▸ hselect)) honward
    · rw [(happen_leaves hhappen).1]
      exact h.order (hx.stage ▸ htarget)
  · exact hdecided.live

/-- The commands of the play, as opposed to those that change a battle from outside. -/
def Command.IsPlay : Command → Prop
  | perform _ | close => False
  | _ => True

theorem Live.selectAction {o : Order} (h : Live p b) (hb : Paused ts b) (hled : Led p b)
    (hok : b.selectAction o = .ok b') : Live p b' := by
  rcases selectAction_cases hok with rfl | ⟨hphase, hactor, hcase⟩
  · exact h
  · have hs := hb.silent hphase (by decide) rfl
    have hpending : Silent ts { b with pending := some o } :=
      ⟨hs.triggers, hs.resume, hs.dialogs, hs.outcome⟩
    have hled' : Led p { b with pending := some o } := hled
    rcases hcase with ⟨-, c, hexecute, hrun⟩ | ⟨-, hflee⟩ | ⟨hkind, rfl⟩
    · have hc := Led.lasting.executePending hexecute hled'
      exact (hpending.executePending rfl hexecute).run_live rfl rfl hc hrun
    · exact Live.attemptFlee hpending hled' hflee
    · have hstage : b.stage = .actionSelect := by rw [stage_of_ne (by simp [hphase]), hphase]
      have hawaits := h.turn (.inl hstage)
      refine ⟨fun _ _ => ?_, fun _ => hawaits, fun _ => ⟨o, rfl, hkind, ?_⟩⟩
      · exact (h.contested (by simp [hphase, Phase.isWaiting]) (by simp [hstage])).congr rfl
      · rw [hawaits.current?] at hactor
        obtain ⟨f, hf, hid⟩ := Option.map_eq_some_iff.1 hactor
        rw [← hid, (hled p f hf).1]

theorem Live.apply {k : Command} (h : Live p b) (hb : Paused ts b) (hled : Led p b)
    (hk : k.IsPlay) (hfits : k.Fits b) (hok : k.apply b = .ok b') : Live p b' := by
  cases k with
  | start =>
      have hs := hb.silent (hfits rfl) (by decide) rfl
      obtain ⟨⟨queue, c⟩, hroll, hok⟩ := Fallible.bind_eq_ok.1 hok
      obtain ⟨dice, -, rfl⟩ := roll_eq_ok hroll
      have hled' : Led p { b with dice, queue, turn := 1, index := 0, phase := .turnStart } := hled
      exact run_live (hs.round dice queue) hled' (live_of_not_isWaiting rfl) hok
  | selectAction o => exact h.selectAction hb hled hok
  | selectTargets ids =>
      rcases selectTargets_cases hok with rfl | ⟨o, c, -, hphase, hexecute, hrun⟩
      · exact h
      · have hs := hb.silent hphase (by decide) rfl
        have hled' : Led p { b with pending := some { o with targets := ids } } := hled
        have hc := Silent.executePending (b := { b with pending := some { o with targets := ids } })
          ⟨hs.triggers, hs.resume, hs.dialogs, hs.outcome⟩ rfl hexecute
        exact hc.run_live rfl rfl (Led.lasting.executePending hexecute hled') hrun
  | cancelTargets =>
      cases hok
      rcases cancelTargets_cases b with heq | ⟨hphase, heq⟩
      · rwa [heq]
      · have hstage : b.stage = .targetSelect := by rw [stage_of_ne (by simp [hphase]), hphase]
        have hcontested := h.contested (by simp [hphase, Phase.isWaiting]) (by simp [hstage])
        rw [heq]
        refine ⟨fun _ _ => hcontested.congr rfl, fun _ => h.turn (.inr hstage), fun htarget => ?_⟩
        rw [stage_of_ne (by rintro ⟨⟩)] at htarget
        cases htarget
  | queueDialog d =>
      have hopen : Open ts b.stage b := ⟨hb.standing, rfl⟩
      have hstage := (hopen.queueDialog hb.isOpen hok).stage
      rcases queueDialog_cases hok with ⟨-, notices, rfl⟩ | ⟨hne, hover, resume, notices, -, rfl⟩
      · exact h.congr rfl (fun hwaiting _ => hwaiting) rfl rfl rfl rfl
      · refine h.congr hstage (fun _ hstart => ?_) rfl rfl rfl rfl
        have hwaits : b.isRunning = false :=
          hb.phase.resolve_left fun heq => hstart (by rw [hstage, stage_of_ne hne, heq])
        have hterminal : b.phase.isTerminal = false := hover
        simpa [isRunning, hterminal] using hwaits
  | dismissDialog =>
      rcases dismissDialog_cases hok with rfl | ⟨d, rest, hdialogs, -, hafter⟩
      · exact h
      · have hopen := hb.dialog_or_isOver (by simp [hdialogs])
        have hrest : Live p { b with dialogs := rest } :=
          h.congr rfl (fun hwaiting _ => hwaiting) rfl rfl rfl rfl
        exact hrest.afterDialog (hb.standing.setDialogs hopen rest) hled hopen hafter
  | chooseOption id =>
      rcases chooseOption_cases hok with rfl | ⟨d, rest, o, hdialogs, -, hcase⟩
      · exact h
      · rcases hcase with ⟨-, hafter⟩ | ⟨e, x, y, -, hperform, hend, hafter⟩
        · have hopen := hb.dialog_or_isOver (by simp [hdialogs])
          have hrest : Live p { b with dialogs := rest } :=
            h.congr rfl (fun hwaiting _ => hwaiting) rfl rfl rfl rfl
          exact hrest.afterDialog (hb.standing.setDialogs hopen rest) hled hopen hafter
        · obtain ⟨hy, hopen⟩ := hb.answered (by simp [hdialogs]) hperform hend
          have hlive := h.answered hb (by simp [hdialogs]) hperform hend
          have hrest : Led p { b with dialogs := rest } := hled
          have hy' := Led.lasting.checkEnd hend (Led.lasting.perform hperform hrest)
          exact hlive.afterDialog hy hy' hopen hafter
  | perform e => exact hk.elim
  | close => exact hk.elim

theorem Live.course (h : Live p b) (hb : Paused ts b) (hled : Led p b)
    (hcourse : Course Command.IsPlay b b') : Live p b' := by
  induction hcourse with
  | refl => exact h
  | tail hbefore hstep ih =>
      obtain ⟨k, hk, hfits, hok⟩ := hstep
      exact ih.apply (hb.course hbefore) (Led.lasting.course hbefore hled) hk hfits hok

/-- The pending order is that of a fighter on the field, who can carry it out. -/
def Executable (b : Battle) : Prop :=
  ∃ o f, b.pending = some o ∧ b.fighter? o.actorId = some f ∧
    (o.kind = .skill ∨ o.kind = .item ∨ o.kind = .defend)

theorem phase_of_stage (hstage : b.stage = .actionSelect ∨ b.stage = .targetSelect) :
    b.phase.isWaiting = true ∧ b.isOver = false := by
  by_cases hphase : b.phase = .dialog
  · simp [isOver, hphase, Phase.isWaiting, Phase.isTerminal]
  · rw [stage_of_ne hphase] at hstage
    rcases hstage with heq | heq
    all_goals simp [isOver, heq, Phase.isWaiting, Phase.isTerminal]

theorem Live.contested_of_stage (h : Live p b)
    (hstage : b.stage = .actionSelect ∨ b.stage = .targetSelect) : b.Contested := by
  refine h.contested (phase_of_stage hstage).1 ?_
  rcases hstage with heq | heq
  all_goals simp [heq]

theorem Live.exists_current? (h : Live p b) (hled : Led p b)
    (hstage : b.stage = .actionSelect ∨ b.stage = .targetSelect) :
    ∃ f, b.current? = some f ∧ b.fighter? p = some f ∧ f.isAlive = true ∧ f.isPlayer = true := by
  obtain ⟨f, hf, halive, hplayer⟩ := hled.exists_living (h.contested_of_stage hstage).1
  exact ⟨f, by rw [(h.turn hstage).current?, hf], hf, halive, hplayer⟩

def Ready (p : String) : Call → Prop
  | (b, .command _) => Live p b
  | (b, .dispatch f) => b.current? = some f
  | (b, .executePending) => Executable b
  | _ => True

theorem Ready.calls {s t : Call} (hcall : Calls s t) (hdue : Due ts s) (hled : Led p s.1)
    (h : Ready p s) : Ready p t := by
  cases hcall with
  | @defend b o _ hkind hactor =>
      obtain ⟨f, hf, hid⟩ := Option.map_eq_some_iff.1 hactor
      obtain ⟨e, -, hfound⟩ := Option.bind_eq_some_iff.1 hf
      refine ⟨o, f, rfl, ?_, .inr (.inr hkind)⟩
      rw [← hid, (hled e.id f hfound).1]
      exact hfound
  | @target b o ids hpending hphase =>
      have hstage : b.stage = .targetSelect := by rw [stage_of_ne (by simp [hphase]), hphase]
      obtain ⟨o', ho', hkind, hactor⟩ := Live.order h hstage
      obtain rfl : o = o' := Option.some.inj (hpending.symm.trans ho')
      obtain ⟨f, -, hfound, -⟩ := Live.exists_current? h hled (.inr hstage)
      exact ⟨{ o with targets := ids }, f, rfl, hactor ▸ hfound, hkind.imp_right .inl⟩
  | resumeTurn _ hcurrent => exact hcurrent
  | act hcurrent halive hbegin htriggers hend hover _ =>
      have hbegun : Begun _ _ _ := ⟨hcurrent, halive, _, hbegin, htriggers⟩
      rcases hdue.undecided hbegun hend with ⟨rfl, -, -⟩ | he
      · exact hbegun.current? hled
      · exact absurd he.isOver (by simp [hover])
  | @enemy b c f o _ _ horder =>
      obtain ⟨dice, hrun, rfl⟩ := roll_eq_ok horder
      obtain ⟨hkind, hactor⟩ := Tactics.choose_own _ _ _ hrun
      obtain ⟨e, -, hfound⟩ := Option.bind_eq_some_iff.1 (show b.current? = some f from h)
      refine ⟨o, f, rfl, ?_, hkind.imp_right .inr⟩
      rw [hactor, (hled e.id f hfound).1]
      exact hfound
  | _ => trivial

theorem Ready.reaches {s t : Call} (hreaches : Reaches s t) (hdue : Due ts s) (hled : Led p s.1)
    (h : Ready p s) : Ready p t := by
  induction hreaches with
  | refl => exact h
  | tail hbefore hcall ih =>
      exact ih.calls hcall (hdue.reaches hbefore) (Led.lasting.reaches hbefore hled)

structure Sound (p : String) (b : Battle) : Prop where
  disciplined : Disciplined b
  live : Live p b

theorem Sound.apply {r : Stat.Rules} {cfg : Config} {k : Command} (h : Sound p b)
    (hb : Intact r cfg p True b) (hk : k.IsPlay) (hfits : k.Fits b) (hok : k.apply b = .ok b') :
    Sound p b' := by
  have hpaused := h.disciplined.paused (hb.outcome trivial)
  exact ⟨(hpaused.apply hfits hok).disciplined, h.live.apply hpaused hb.led hk hfits hok⟩

/-- Whether the commands of the play come to an end or fail, a battle has an outcome just in victory
and defeat. Commands that come to an end keep waiting battles sound: where one is not, a command
failed and it has not been sound since. In a sound one, where an order or targets are waited for,
the player whose turn it is lives, an enemy lives and nothing is decided; with targets to come the
player's order takes targets. On the way of the next command only orders that can be carried out, of
fighters on the field, are carried out. -/
theorem live_or_derails {b₀ b₁ b : Battle} {player : Option Character}
    {enemies : Option (List Enemy)} {ks : List Command} (h₀ : b₀.assemble player enemies = .ok b₁)
    (hks : b₁.Admits ks) (hplay : ∀ k ∈ ks, k.IsPlay) (hafter : b₁.after ks = b) :
    (b.outcome.isSome = true ↔ b.phase = .victory ∨ b.phase = .defeat) ∧
    ((Sound (player.getD b₀.game.player).id b ∧
      (b.stage = .actionSelect ∨ b.stage = .targetSelect →
        b.enemies ≠ [] ∧ b.outcome = none ∧
        ∃ f, b.current? = some f ∧ f.isPlayer = true ∧ f.isAlive = true ∧
          (b.stage = .targetSelect → ∃ o, b.pending = some o ∧
            (o.kind = .skill ∨ o.kind = .item) ∧ o.actorId = f.id)) ∧
      ∀ k : Command, k.Fits b →
        (k.IsPlay → ∀ c, k.apply b = .ok c → Sound (player.getD b₀.game.player).id c) ∧
        ∀ x, Reaches (b, .command k) (x, .executePending) →
          ∃ o f, x.pending = some o ∧ x.fighter? o.actorId = some f ∧
            (o.kind = .skill ∨ o.kind = .item ∨ o.kind = .defend)) ∨
      Derails (Sound (player.getD b₀.game.player).id) b₁ ks) := by
  subst hafter
  have hend := Intact.of_assemble h₀ hks (List.prefix_refl _)
  refine ⟨hend.outcome trivial, (holds_or_derails ?_ ?_).imp_left fun hsound => ?_⟩
  · refine ⟨(Paused.assemble h₀).disciplined, live_of_not_isWaiting ?_⟩
    rw [phase_of_assemble h₀]
    rfl
  · intro pre k c hpre hsound hok
    have hbefore : pre <+: ks := (List.prefix_append _ _).trans hpre
    have hk : k ∈ ks := hpre.subset (by simp)
    exact hsound.apply (Intact.of_assemble h₀ hks hbefore) (hplay k hk) (hks pre k hpre) hok
  · have hpaused := hsound.disciplined.paused (hend.outcome trivial)
    refine ⟨hsound, fun hstage => ⟨?_, ?_, ?_⟩, fun k hk => ⟨fun hkplay c hok => ?_, ?_⟩⟩
    · exact (hsound.live.contested_of_stage hstage).2
    · exact hpaused.standing.outcome_eq_none (phase_of_stage hstage).2
    · obtain ⟨f, hcurrent, hfound, halive, hplayer⟩ := hsound.live.exists_current? hend.led hstage
      refine ⟨f, hcurrent, hplayer, halive, fun htarget => ?_⟩
      rw [(hend.led _ f hfound).1]
      exact hsound.live.order htarget
    · exact hsound.apply hend hkplay hk hok
    · exact fun x hreaches => Ready.reaches hreaches ⟨hk, hpaused⟩ hend.led hsound.live

theorem live_or_derails_targets :
    ∃ b₁ b x, (plain none).assemble none (some [.plain "slime"]) = .ok b₁ ∧
      b₁.after [.start, .selectAction { kind := .skill, actorId := "hero" }] = b ∧
      b.phase = .targetSelect ∧
      (∃ f, b.current? = some f ∧ f.isPlayer = true ∧ f.isAlive = true) ∧ b.enemies ≠ [] ∧
      Reaches (b, .command (.selectTargets ["slime"])) (x, .executePending) ∧
      ∃ o f, x.pending = some o ∧ x.fighter? o.actorId = some f ∧
        (o.kind = .skill ∨ o.kind = .item ∨ o.kind = .defend) := by
  have hok : (do
      let b₁ ← (plain none).assemble none (some [.plain "slime"])
      let c ← b₁.startWithin 2
      let b ← c.selectAction { kind := .skill, actorId := "hero" }
      return (b₁.phase, b.phase)).toOption = some (.start, .targetSelect) := by
    decide +kernel
  obtain ⟨phases, h, hphases⟩ := Fallible.exists_eq_ok_and (f := id) (by simpa using hok)
  simp only [Fallible.bind_eq_ok, Except.ok.injEq] at h
  obtain ⟨b₁, h₁, c, hstart, b, hselect, rfl⟩ := h
  obtain ⟨hfirst, hphase⟩ : b₁.phase = .start ∧ b.phase = .targetSelect := by
    simpa using hphases
  have hfollow :
      b₁.follow [.start, .selectAction { kind := .skill, actorId := "hero" }] = .ok b := by
    simp only [follow, Command.apply, start_of_startWithin hstart, hselect, Fallible.ok_bind]
  have hstage : b.stage = .targetSelect := by rw [stage_of_ne (by simp [hphase]), hphase]
  have hsound := (live_or_derails h₁ (admits_of_start hfirst (by simp))
    (by simp [Command.IsPlay]) (after_of_follow hfollow)).2
  obtain ⟨-, hwaits, hnext⟩ := hsound.resolve_right (not_derails_of_follow hfollow)
  obtain ⟨henemies, -, f, hcurrent, hplayer, halive, horder⟩ := hwaits (.inr hstage)
  obtain ⟨o, hpending, -⟩ := horder hstage
  have hreaches : Reaches (b, .command (.selectTargets ["slime"]))
      ({ b with pending := some { o with targets := ["slime"] } }, .executePending) :=
    .single (.target hpending hphase)
  exact ⟨b₁, b, _, h₁, after_of_follow hfollow, hphase, ⟨f, hcurrent, hplayer, halive⟩, henemies,
    hreaches, (hnext (.selectTargets ["slime"]) (by rintro ⟨⟩)).2 _ hreaches⟩

/-- After an answer that failed the targets are called off, which does nothing: behind the dialog an
order is waited for though no enemy lives, and nothing is decided. -/
theorem not_live_unready :
    ∃ b₁ c, unready.assemble none (some [.plain "slime"]) = .ok b₁ ∧
      1 ≤ unready.config.maxPhaseDepth ∧ b₁.Admits (bargained ++ [.cancelTargets]) ∧
      (∀ k ∈ bargained ++ [.cancelTargets], k.IsPlay) ∧
      Command.apply (b₁.after bargained) .cancelTargets = .ok c ∧ c.phase = .dialog ∧
      c.resume = [.actionSelect] ∧ c.enemies = [] ∧ c.outcome = none := by
  obtain ⟨b₁, c, h₁, hks, hc, hphase, -, hresume, henemies, houtcome⟩ := unready_runs
  refine ⟨b₁, c, h₁, by decide, hks.concat (by rintro ⟨⟩), by simp [bargained, Command.IsPlay], ?_,
    hphase, hresume, henemies, houtcome⟩
  simp [hc, Command.apply, cancelTargets, hphase]

end Skirmish.Battle

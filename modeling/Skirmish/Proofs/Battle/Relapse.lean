import Mathlib.Data.List.Induction
import Skirmish.Proofs.Battle.Terminal

namespace Skirmish.Battle

variable {stale : Prop} {b b' : Battle} {f : Fighter} {k : Command}

/-- The battle has left its first phase, which is at most the last one to return to, and stale
there; where something is said there is a phase to return to. -/
structure Going (stale : Prop) (b : Battle) : Prop where
  phase : b.phase ≠ .start
  last : .start ∉ b.resume.dropLast
  stale : .start ∈ b.resume → stale
  silent : .dialog ∉ b.resume
  returns : b.phase = .dialog ∨ b.dialogs ≠ [] → b.resume ≠ []

def Afoot (stale : Prop) (b : Battle) : Prop := b.isOver = true ∨ Going stale b

theorem Going.congr (h : Going stale b) (hphase : b'.phase = b.phase)
    (hresume : b'.resume = b.resume) (hdialogs : b'.dialogs = b.dialogs) : Going stale b' where
  phase := by
    rw [hphase]
    exact h.phase
  last := by
    rw [hresume]
    exact h.last
  stale := by
    rw [hresume]
    exact h.stale
  silent := by
    rw [hresume]
    exact h.silent
  returns := by
    rw [hphase, hresume, hdialogs]
    exact h.returns

theorem Going.move (h : Going stale b) {p : Phase} (hp : p ≠ .start ∧ p ≠ .dialog) :
    Going stale { b with phase := p } :=
  ⟨hp.1, h.last, h.stale, h.silent, fun hsaid => h.returns (.inr (hsaid.resolve_left hp.2))⟩

theorem Afoot.phase_ne (h : Afoot stale b) : b.phase ≠ .start := by
  rcases h with hover | hgoing
  · exact phase_ne_of_over hover rfl
  · exact hgoing.phase

theorem Afoot.going (h : Afoot stale b) (hover : b.isOver = false) : Going stale b :=
  h.resolve_left (by simp [hover])

theorem Afoot.notify (h : Afoot stale b) : Afoot stale b.notify :=
  h.imp_right fun h => h.congr rfl rfl rfl

theorem Afoot.checkEnd (h : Afoot stale b) (hok : b.checkEnd = .ok b') : Afoot stale b' := by
  rcases checkEnd_cases hok with ⟨rfl, -⟩ | ⟨-, -, hconcluded⟩
  · exact h
  · exact .inl hconcluded.isOver

namespace Going

theorem nextTurn (h : Going stale b) (hok : b.nextTurn = .ok b') : Afoot stale b' := by
  rcases nextTurn_cases hok with ⟨-, rfl⟩ | ⟨-, turn, queue, dice, -, ⟨-, rfl⟩ | ⟨-, hend⟩⟩
  · exact .inr (h.congr rfl rfl rfl)
  · exact .inr (h.congr rfl rfl rfl)
  · exact Afoot.checkEnd (b := { b with turn, index := 0, queue, dice })
      (.inr (h.congr rfl rfl rfl)) hend

theorem endTurn (h : Going stale b) (hok : b.endTurn = .ok b') : Afoot stale b' :=
  nextTurn (b := b.enter .turnEnd) ((h.move (p := .turnEnd) (by decide)).congr rfl rfl rfl) hok

theorem acted (h : Going stale b) (hacted : Acted b b') : Going stale b' := by
  obtain ⟨fighters, dice, log, rfl⟩ := hacted
  exact h.congr rfl rfl rfl

theorem executePending {o : Order} (h : Going stale b) (ho : b.pending = some o)
    (hok : b.executePending = .ok b') : Afoot stale b' := by
  have hexecutes : Going stale { b with phase := .actionExecute } := h.move (by decide)
  rcases executePending_cases ho hok with
    ⟨notices, hend⟩ | ⟨g, c, d, notices, -, hacted, hcheck, hlast⟩
  · exact endTurn (b := { b with phase := .actionExecute, notices, pending := none })
      (hexecutes.congr rfl rfl rfl) hend
  · have hc : Going stale c := acted (b := { b with phase := .actionExecute, notices })
      (hexecutes.congr rfl rfl rfl) hacted
    have hd : Afoot stale d := Afoot.checkEnd (b := { c with pending := none })
      (.inr (hc.congr rfl rfl rfl)) hcheck
    rcases hlast with ⟨hphase, hend⟩ | ⟨-, rfl⟩
    · exact (hd.going (by simp [isOver, hphase, Phase.isTerminal])).endTurn hend
    · exact hd

theorem dispatch (h : Going stale b) (hok : b.dispatch f = .ok b') : Afoot stale b' := by
  rcases dispatch_cases hok with ⟨-, hend⟩ | ⟨-, -, rfl⟩ | ⟨-, -, o, dice, hexecute⟩
  · exact h.endTurn hend
  · exact .inr ((h.move (p := .actionSelect) (by decide)).congr rfl rfl rfl)
  · have hpending : Going stale { b with dice, pending := some o } := h.congr rfl rfl rfl
    exact hpending.executePending rfl hexecute

theorem queueDialog {d : Dialog} (h : Going stale b) (hok : b.queueDialog d = .ok b') :
    Afoot stale b' := by
  rcases queueDialog_cases hok with
    ⟨hcase, notices, rfl⟩ | ⟨hdialog, -, resume, notices, ⟨hne, rfl⟩ | rfl, rfl⟩
  · rcases hcase with hdialog | hover
    · exact .inr ⟨h.phase, h.last, h.stale, h.silent, fun _ => h.returns (.inl hdialog)⟩
    · exact .inl hover
  · exact .inr ⟨by simp, h.last, h.stale, h.silent, fun _ => hne⟩
  · refine .inr ⟨by simp, fun hmem => ?_, fun hmem => ?_, fun hmem => ?_, by simp⟩
    · cases hr : b.resume with
      | nil => simp [hr] at hmem
      | cons p rest =>
          rw [hr, List.dropLast_cons_cons, ← hr] at hmem
          exact (List.mem_cons.1 hmem).elim (Ne.symm h.phase) h.last
    · exact h.stale ((List.mem_cons.1 hmem).resolve_left (Ne.symm h.phase))
    · exact (List.mem_cons.1 hmem).elim (Ne.symm hdialog) h.silent

end Going

namespace Afoot

theorem happens (h : Afoot stale b) (hstep : Happens b b') : Afoot stale b' := by
  rcases h with hover | hgoing
  · refine .inl ?_
    rw [isOver, happen_keeps (.inr hover) (.single hstep)]
    exact hover
  · rcases happens_cases hstep with
      ⟨d, hd⟩ | ⟨d, queue, ⟨fighters, origins, buffsMade, log, rfl⟩, rfl⟩
    · exact hgoing.queueDialog hd
    · exact .inr (hgoing.congr rfl rfl rfl)

theorem happen (h : Afoot stale b) (hsteps : Relation.ReflTransGen Happens b b') :
    Afoot stale b' := by
  induction hsteps with
  | refl => exact h
  | tail _ hstep ih => exact ih.happens hstep

theorem startTurn (h : Afoot stale b) (hruns : b.isRunning = true)
    (hok : b.startTurn = .ok b') : Afoot stale b' := by
  have hover : b.isOver = false := by
    by_contra hover
    simp [not_isRunning_of_isOver (by simpa using hover)] at hruns
  have hstart : Going stale { b with phase := .turnStart } := (h.going hover).move (by decide)
  rcases startTurn_cases hok with
    ⟨-, hnext⟩ | ⟨f, c, d, e, -, -, hbegin, htriggers, hend, hlast⟩
  · exact hstart.nextTurn hnext
  · have hc : Going stale c := hstart.acted (.beginTurn hbegin)
    obtain ⟨book, -, hhappen⟩ := checkTriggers_happen htriggers
    have hd : Afoot stale d :=
      happen (b := { c with triggers := book }) (.inr (hc.congr rfl rfl rfl)) hhappen
    have he : Afoot stale e := hd.checkEnd hend
    rcases hlast with ⟨-, rfl⟩ | ⟨hgoes, hdispatch⟩
    · exact he.notify
    · have hgoes : e.isOver = false ∧ e.phase ≠ .dialog := by simpa using hgoes
      exact (he.going hgoes.1).dispatch hdispatch

theorem run (h : Afoot stale b) (hok : b.run = .ok b') : Afoot stale b' :=
  (run_induction (fun _ _ hb hruns hturn => hb.startTurn hruns hturn) hok h).1

end Afoot

theorem Going.pop (h : Going stale b) (hdialogs : b.dialogs = []) {p : Phase} {rest : List Phase}
    (hresume : b.resume = p :: rest) (hp : p ≠ .start) :
    Going stale { b with phase := p, resume := rest } where
  phase := hp
  last hmem := by
    refine h.last ?_
    rw [hresume]
    cases rest with
    | nil => cases hmem
    | cons q rest => exact List.mem_cons_of_mem _ hmem
  stale hmem := h.stale (hresume ▸ List.mem_cons_of_mem _ hmem)
  silent hmem := h.silent (hresume ▸ List.mem_cons_of_mem _ hmem)
  returns hsays := by
    rcases hsays with rfl | hsays
    · exact absurd (hresume ▸ List.mem_cons_self) h.silent
    · exact absurd hdialogs hsays

/-- The phase behind the last dialog goes on, unless it is that before the start. -/
theorem Going.resumePhase (h : Going stale b) (hdialogs : b.dialogs = []) (hresume : b.resume ≠ [])
    (hok : b.resumePhase = .ok b') : b.resume = [.start] ∨ Afoot stale b' := by
  obtain ⟨p, rest, hstack⟩ := List.exists_cons_of_ne_nil hresume
  by_cases hp : p = .start
  · -- The phase before the start lies on top only if nothing lies under it.
    refine .inl ?_
    cases rest with
    | nil => rw [hstack, hp]
    | cons q rest => exact absurd (by simp [hstack, hp]) h.last
  · have hpop := h.pop hdialogs hstack hp
    refine .inr ?_
    rcases resumePhase_cases hok with ⟨-, rfl⟩ | ⟨hturn, c, hrun, hcase⟩
    · refine .inr (hpop.congr ?_ ?_ rfl)
      all_goals simp [Battle.notify, hstack]
    · obtain rfl : p = .turnStart := by simpa [hstack] using hturn
      have hresumed : Going stale b.resumed := by
        refine hpop.congr rfl ?_ rfl
        simp [Battle.resumed, hstack]
      refine Afoot.run ?_ hrun
      rcases hcase with ⟨-, hnext⟩ | ⟨f, -, hdispatch⟩
      · exact hresumed.nextTurn hnext
      · exact hresumed.dispatch hdispatch

inductive Answers (b : Battle) : Command → Battle → Prop
  | dismiss {d : Dialog} {rest : List Dialog} (hdialogs : b.dialogs = d :: rest)
      (hplain : d.options = []) : Answers b .dismissDialog { b with dialogs := rest }
  | choose {d : Dialog} {rest : List Dialog} {id : String} {o : DialogOption}
      (hdialogs : b.dialogs = d :: rest) (hoption : d.options.find? (·.id = id) = some o)
      (hevent : o.event? = none) : Answers b (.chooseOption id) { b with dialogs := rest }
  | answer {d : Dialog} {rest : List Dialog} {id : String} {o : DialogOption} {e : Event}
      {x y : Battle} (hdialogs : b.dialogs = d :: rest)
      (hoption : d.options.find? (·.id = id) = some o) (hevent : o.event? = some e)
      (hdone : Battle.perform { b with dialogs := rest } e = .ok x) (hend : x.checkEnd = .ok y) :
      Answers b (.chooseOption id) y

/-- The reply leaves the last dialog of a battle that is not over, and nothing but the phase before
the start is there to return to. -/
def Surfaces (b : Battle) (k : Command) : Prop :=
  ∃ c, Answers b k c ∧ c.dialogs = [] ∧ c.isOver = false ∧ c.resume = [.start]

theorem Answers.apply {c : Battle} (h : Answers b k c) : k.apply b = c.afterDialog := by
  cases h with
  | dismiss hdialogs hplain => simp [Command.apply, dismissDialog, hdialogs, hplain]
  | choose hdialogs hoption hevent => simp [Command.apply, chooseOption, hdialogs, hoption, hevent]
  | answer hdialogs hoption hevent hdone hend =>
      simp [Command.apply, chooseOption, hdialogs, hoption, hevent, hdone, hend]

theorem answers_of_dismissDialog (hok : b.dismissDialog = .ok b') :
    b' = b ∨ ∃ c, Answers b .dismissDialog c ∧ c.afterDialog = .ok b' := by
  rcases dismissDialog_cases hok with hsame | ⟨d, rest, hdialogs, hplain, hafter⟩
  · exact .inl hsame
  · exact .inr ⟨_, .dismiss hdialogs hplain, hafter⟩

theorem answers_of_chooseOption {id : String} (hok : b.chooseOption id = .ok b') :
    b' = b ∨ ∃ c, Answers b (.chooseOption id) c ∧ c.afterDialog = .ok b' := by
  rcases chooseOption_cases hok with hsame | ⟨d, rest, o, hdialogs, hoption, hcase⟩
  · exact .inl hsame
  · rcases hcase with ⟨hevent, hafter⟩ | ⟨e, x, y, hevent, hperform, hend, hafter⟩
    · exact .inr ⟨_, .choose hdialogs hoption hevent, hafter⟩
    · exact .inr ⟨y, .answer hdialogs hoption hevent hperform hend, hafter⟩

theorem Surfaces.apply (h : Surfaces b k) : ∃ c, k.apply b = .ok c ∧ c.phase = .start := by
  obtain ⟨c, hanswers, hdialogs, hover, hresume⟩ := h
  refine ⟨notify { c with phase := .start, resume := [] }, ?_, rfl⟩
  rw [hanswers.apply]
  simp [Battle.afterDialog, Battle.resumePhase, hdialogs, hover, hresume]

theorem resume_ne_nil_of_happen (h : Relation.ReflTransGen Happens b b') (hresume : b.resume ≠ []) :
    b'.resume ≠ [] := by
  induction h with
  | refl => exact hresume
  | tail _ hstep ih =>
      rcases happens_cases hstep with
        ⟨d, hd⟩ | ⟨d, queue, ⟨fighters, origins, buffsMade, log, rfl⟩, rfl⟩
      · rcases queueDialog_cases hd with
          ⟨-, notices, rfl⟩ | ⟨-, -, resume, notices, ⟨hne, rfl⟩ | rfl, rfl⟩
        · exact ih
        · exact hne
        · simp
      · exact ih

/-- Where a dialog is left there is a phase to return to, unless the battle is over. -/
theorem Afoot.answers {c : Battle} (h : Afoot stale b) (hanswers : Answers b k c) :
    Afoot stale c ∧ (c.isOver = false → c.resume ≠ []) := by
  have hset {d : Dialog} {rest : List Dialog} (hdialogs : b.dialogs = d :: rest) :
      Afoot stale { b with dialogs := rest } ∧ (b.isOver = false → b.resume ≠ []) := by
    rcases h with hover | hgoing
    · exact ⟨.inl hover, by simp [hover]⟩
    · have hresume := hgoing.returns (.inr (by simp [hdialogs]))
      exact ⟨.inr ⟨hgoing.phase, hgoing.last, hgoing.stale, hgoing.silent, fun _ => hresume⟩,
        fun _ => hresume⟩
  cases hanswers with
  | dismiss hdialogs _ => exact hset hdialogs
  | choose hdialogs _ _ => exact hset hdialogs
  | @answer d rest id o e x _ hdialogs _ _ hdone hend =>
      obtain ⟨hrest, hresume⟩ := hset hdialogs
      have hhappen := perform_happens e hdone
      have hx := hrest.happen hhappen
      refine ⟨hx.checkEnd hend, fun hover => ?_⟩
      rcases checkEnd_cases hend with ⟨rfl, -⟩ | ⟨-, -, hconcluded⟩
      · refine resume_ne_nil_of_happen hhappen (hresume (Bool.eq_false_iff.2 fun hends => ?_))
        have hsame := happen_keeps (b := { b with dialogs := rest }) (.inr hends) hhappen
        rw [isOver, hsame] at hover
        cases hends.symm.trans hover
      · simp [hconcluded.isOver] at hover

theorem Afoot.afterDialog {c : Battle} (h : Afoot stale b) (hanswers : Answers b k c)
    (hok : c.afterDialog = .ok b') : Surfaces b k ∧ stale ∨ Afoot stale b' := by
  obtain ⟨hc, hresume⟩ := h.answers hanswers
  rcases afterDialog_cases hok with ⟨-, rfl⟩ | ⟨hdialogs, hover, hresumes⟩
  · exact .inr hc.notify
  · have hgoing := hc.going hover
    rcases hgoing.resumePhase hdialogs (hresume hover) hresumes with hstart | hafoot
    · exact .inl ⟨⟨c, hanswers, hdialogs, hover, hstart⟩, hgoing.stale (by simp [hstart])⟩
    · exact .inr hafoot

theorem Going.attemptFlee (h : Going stale b) (hok : b.attemptFlee = .ok b') :
    Afoot stale b' := by
  rcases attemptFlee_cases hok with ⟨dice, log, notices, rfl⟩ | ⟨dice, log, c, hend, hrun⟩
  · exact .inl rfl
  · exact (endTurn (b := { b with pending := none, dice, log }) (h.congr rfl rfl rfl) hend).run hrun

theorem Afoot.apply (h : Afoot stale b) (hk : k.IsReply) (hok : k.apply b = .ok b') :
    Surfaces b k ∧ stale ∨ Afoot stale b' := by
  have hgoing {p : Phase} (hphase : b.phase = p) (hp : p.isTerminal = false) : Going stale b :=
    h.going (by rw [isOver, hphase, hp])
  cases k with
  | selectAction o =>
      refine .inr ?_
      rcases selectAction_cases hok with rfl | ⟨hphase, -, hcase⟩
      · exact h
      · have hpending : Going stale { b with pending := some o } :=
          (hgoing hphase rfl).congr rfl rfl rfl
        rcases hcase with ⟨-, c, hexecute, hrun⟩ | ⟨-, hflee⟩ | ⟨-, rfl⟩
        · exact (hpending.executePending rfl hexecute).run hrun
        · exact hpending.attemptFlee hflee
        · exact .inr ((hpending.move (p := .targetSelect) (by decide)).congr rfl rfl rfl)
  | selectTargets ids =>
      refine .inr ?_
      rcases selectTargets_cases hok with rfl | ⟨o, c, -, hphase, hexecute, hrun⟩
      · exact h
      · have hpending : Going stale { b with pending := some { o with targets := ids } } :=
          (hgoing hphase rfl).congr rfl rfl rfl
        exact (hpending.executePending rfl hexecute).run hrun
  | cancelTargets =>
      cases hok
      refine .inr ?_
      rcases cancelTargets_cases b with heq | ⟨hphase, heq⟩
      · rwa [heq]
      · have hselect := (hgoing hphase rfl).move (p := .actionSelect) (by decide)
        rw [heq]
        exact .inr (hselect.congr rfl rfl rfl)
  | queueDialog d => exact .inr (h.happens (.dialog hok))
  | dismissDialog =>
      rcases answers_of_dismissDialog hok with rfl | ⟨c, hanswers, hafter⟩
      · exact .inr h
      · exact h.afterDialog hanswers hafter
  | chooseOption id =>
      rcases answers_of_chooseOption hok with rfl | ⟨c, hanswers, hafter⟩
      · exact .inr h
      · exact h.afterDialog hanswers hafter
  | _ => exact hk.elim

theorem follow_append {ks ks' : List Command} :
    b.follow (ks ++ ks') = b.follow ks >>= fun c => c.follow ks' := by
  induction ks generalizing b with
  | nil => rfl
  | cons k ks ih =>
      rw [List.cons_append, Battle.follow, Battle.follow]
      cases hok : k.apply b with
      | error e => rfl
      | ok c => exact ih

theorem Afoot.follow {ks : List Command} (h : Afoot stale b) (hks : ∀ k ∈ ks, k.IsReply)
    (hspares : stale → ∀ pre k c, pre ++ [k] <+: ks → b.follow pre = .ok c → ¬ Surfaces c k)
    (hok : b.follow ks = .ok b') : Afoot stale b' := by
  induction ks using List.reverseRecOn generalizing b' with
  | nil =>
      cases hok
      exact h
  | append_singleton ks k ih =>
      rw [follow_append] at hok
      obtain ⟨c, hc, hok⟩ := Fallible.bind_eq_ok.1 hok
      obtain ⟨d, hd, hlast⟩ := Fallible.bind_eq_ok.1 hok
      cases hlast
      have hafoot : Afoot stale c := by
        refine ih (fun k hk => hks k (List.mem_append_left _ hk)) (fun hstale pre k c hpre => ?_) hc
        exact hspares hstale pre k c (hpre.trans (List.prefix_append ks _))
      rcases hafoot.apply (hks k (by simp)) hd with ⟨hsurfaces, hstale⟩ | hafoot
      · exact absurd hsurfaces (hspares hstale ks k c (List.prefix_refl _) hc)
      · exact hafoot

/-- Nothing has been said in the first phase, or a dialog lies over it. -/
def Opening (stale : Prop) (b : Battle) : Prop :=
  b.phase = .start ∧ b.resume = [] ∧ b.dialogs = [] ∨
    stale ∧ b.phase = .dialog ∧ b.resume = [.start]

theorem Opening.queueDialog {d : Dialog} (h : Opening stale b) (hok : b.queueDialog d = .ok b') :
    Opening True b' := by
  rcases h with ⟨hphase, hresume, -⟩ | ⟨-, hphase, hresume⟩
  · have hover : b.isOver = false := by simp [isOver, hphase, Phase.isTerminal]
    rcases queueDialog_cases hok with
      ⟨hcase, -⟩ | ⟨-, -, resume, notices, ⟨hne, -⟩ | rfl, rfl⟩
    · simp [hphase, hover] at hcase
    · exact absurd hresume hne
    · exact .inr ⟨trivial, rfl, by simp [hphase, hresume]⟩
  · rcases queueDialog_cases hok with ⟨-, notices, rfl⟩ | ⟨hne, -⟩
    · exact .inr ⟨trivial, hphase, hresume⟩
    · exact absurd hphase hne

theorem Opening.follow {ds : List Dialog} (h : Opening False b)
    (hok : b.follow (ds.map .queueDialog) = .ok b') : Opening (ds ≠ []) b' := by
  induction ds using List.reverseRecOn generalizing b' with
  | nil =>
      cases hok
      exact h.imp_right fun h => h.1.elim
  | append_singleton ds d ih =>
      rw [List.map_append, follow_append] at hok
      obtain ⟨c, hc, hok⟩ := Fallible.bind_eq_ok.1 hok
      obtain ⟨e, he, hlast⟩ := Fallible.bind_eq_ok.1 hok
      cases hlast
      exact ((ih hc).queueDialog he).imp_right fun h => ⟨by simp, h.2⟩

theorem Opening.assemble {player : Option Character} {enemies : Option (List Enemy)}
    (h : b.assemble player enemies = .ok b') : Opening False b' := by
  have hpaused := Paused.assemble h
  have hphase := phase_of_assemble h
  have hsilent := hpaused.silent hphase (by decide) rfl
  exact .inl ⟨hphase, hsilent.resume, hsilent.dialogs⟩

theorem Opening.start (h : Opening stale b) (hok : b.start = .ok b') : Afoot stale b' := by
  obtain ⟨⟨queue, c⟩, hroll, hok⟩ := Fallible.bind_eq_ok.1 hok
  obtain ⟨dice, -, rfl⟩ := roll_eq_ok hroll
  refine Afoot.run (.inr ?_) hok
  rcases h with ⟨-, hresume, hdialogs⟩ | ⟨hstale, -, hresume⟩
  · exact ⟨by simp, by simp [hresume], by simp [hresume], by simp [hresume], by simp [hdialogs]⟩
  · exact ⟨by simp, by simp [hresume], fun _ => hstale, by simp [hresume], by simp [hresume]⟩

/-- After its start a battle comes to its first phase again exactly when a reply leaves the last
dialog with nothing but that phase to return to; it never does if nothing was said before the
start. -/
theorem phase_ne_start_iff {b₀ b₁ b₂ b₃ : Battle} {player : Option Character}
    {enemies : Option (List Enemy)} {ds : List Dialog} {ks : List Command}
    (h₀ : b₀.assemble player enemies = .ok b₁)
    (h₁ : b₁.follow (ds.map .queueDialog) = .ok b₂) (h₂ : b₂.start = .ok b₃)
    (hks : ∀ k ∈ ks, k.IsReply) :
    ((∀ pre c, pre <+: ks → b₃.follow pre = .ok c → c.phase ≠ .start) ↔
      ∀ pre k c, pre ++ [k] <+: ks → b₃.follow pre = .ok c → ¬ Surfaces c k) ∧
    (ds = [] → ∀ pre c, pre <+: ks → b₃.follow pre = .ok c → c.phase ≠ .start) := by
  have hafoot : Afoot (ds ≠ []) b₃ := ((Opening.assemble h₀).follow h₁).start h₂
  have hpre {pre : List Command} (hpre : pre <+: ks) : ∀ k ∈ pre, k.IsReply :=
    fun k hk => hks k (hpre.subset hk)
  refine ⟨⟨fun hnever pre k c hle hc hsurfaces => ?_, fun hspares pre c hle hc => ?_⟩, ?_⟩
  · obtain ⟨d, hd, hphase⟩ := hsurfaces.apply
    refine hnever (pre ++ [k]) d hle ?_ hphase
    rw [follow_append, hc, Fallible.ok_bind, Battle.follow, hd, Fallible.ok_bind, Battle.follow]
  · have hnone (_ : ds ≠ []) (pre' : List Command) (k : Command) (c' : Battle)
        (hle' : pre' ++ [k] <+: pre) := hspares pre' k c' (hle'.trans hle)
    exact (hafoot.follow (hpre hle) hnone hc).phase_ne
  · intro hnil pre c hle hc
    exact (hafoot.follow (hpre hle) (fun hne => absurd hnil hne) hc).phase_ne

def greeting : Dialog := ⟨"", "Hi", []⟩

theorem greeting_runs (ds : List Dialog) (ks : List Command) (phase : Phase)
    (hok : (do
      let b₁ ← (plain none).assemble none (some [.plain "slime"])
      let b₂ ← b₁.follow (ds.map .queueDialog)
      let b₃ ← b₂.startWithin 2
      let b ← b₃.follow ks
      return b.phase).toOption = some phase) :
    ∃ b₁ b₂ b₃ b, (plain none).assemble none (some [.plain "slime"]) = .ok b₁ ∧
      b₁.follow (ds.map .queueDialog) = .ok b₂ ∧ b₂.start = .ok b₃ ∧ b₃.follow ks = .ok b ∧
      b.phase = phase := by
  obtain ⟨found, h, rfl⟩ := Fallible.exists_eq_ok_and (f := id) (by simpa using hok)
  simp only [Fallible.bind_eq_ok, Except.ok.injEq] at h
  obtain ⟨b₁, h₁, b₂, h₂, b₃, h₃, b, hb, rfl⟩ := h
  exact ⟨b₁, b₂, b₃, b, h₁, h₂, start_of_startWithin h₃, hb, rfl⟩

theorem phase_ne_start_iff_greeted :
    ∃ b₁ b₂ b₃ b, (plain none).assemble none (some [.plain "slime"]) = .ok b₁ ∧
      b₁.follow ([].map .queueDialog) = .ok b₂ ∧ b₂.start = .ok b₃ ∧
      b₃.follow [.queueDialog greeting, .dismissDialog] = .ok b ∧ b.phase ≠ .start := by
  obtain ⟨b₁, b₂, b₃, b, h₁, h₂, h₃, hb, -⟩ :=
    greeting_runs [] [.queueDialog greeting, .dismissDialog] .actionSelect (by decide +kernel)
  have hks : ∀ k ∈ [Command.queueDialog greeting, .dismissDialog], k.IsReply := by
    simp [Command.IsReply]
  exact ⟨b₁, b₂, b₃, b, h₁, h₂, h₃, hb,
    (phase_ne_start_iff h₁ h₂ h₃ hks).2 rfl _ b (List.prefix_refl _) hb⟩

/-- A greeting from before the start, dismissed after it, brings the battle back before its
start. -/
theorem phase_eq_start_greeted :
    ∃ b₁ b₂ b₃ b, (plain none).assemble none (some [.plain "slime"]) = .ok b₁ ∧
      b₁.follow ([greeting].map .queueDialog) = .ok b₂ ∧ b₂.start = .ok b₃ ∧
      b₃.follow [.dismissDialog] = .ok b ∧ b.phase = .start :=
  greeting_runs _ _ _ (by decide +kernel)

end Skirmish.Battle

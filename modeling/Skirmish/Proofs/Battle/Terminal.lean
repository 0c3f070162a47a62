import Skirmish.Proofs.Battle.Standing

namespace Skirmish.Battle

variable {ts : List Trigger} {b b' c : Battle} {k : Command}

def Command.IsReply : Command → Prop
  | selectAction _ | selectTargets _ | cancelTargets | queueDialog _ | dismissDialog
  | chooseOption _ => True
  | _ => False

/-- An answer after a flight brings an event that leaves a side without anyone alive. -/
def Fells (b : Battle) : Command → Prop
  | .chooseOption id => b.phase = .fled ∧ ∃ d rest o e x, b.dialogs = d :: rest ∧
      d.options.find? (·.id = id) = some o ∧ o.event? = some e ∧
      Battle.perform { b with dialogs := rest } e = .ok x ∧ ¬ x.Contested
  | _ => False

def Overturns (b : Battle) : List Command → Prop
  | [] => False
  | k :: ks => Fells b k ∨ ∃ c, k.apply b = .ok c ∧ Overturns c ks

def Settled (b b' : Battle) : Prop := b'.phase = b.phase ∧ b'.outcome = b.outcome

theorem Settled.trans (h : Settled b c) (h' : Settled c b') : Settled b b' :=
  ⟨h'.1.trans h.1, h'.2.trans h.2⟩

theorem Settled.isOver (h : Settled b c) (hover : b.isOver = true) : c.isOver = true := by
  rwa [Battle.isOver, h.1]

theorem settled_of_afterDialog (hover : b.isOver = true) (hok : b.afterDialog = .ok b') :
    Settled b b' := by
  rcases afterDialog_cases hok with ⟨-, rfl⟩ | ⟨-, hgoes, -⟩
  · exact ⟨rfl, rfl⟩
  · simp [hover] at hgoes

theorem phase_ne_of_over {p : Phase} (hover : b.isOver = true) (hp : p.isTerminal = false) :
    b.phase ≠ p := by
  rintro rfl
  simp [isOver, hp] at hover

theorem phase_eq_fled (h : Standing ts b) (hover : b.isOver = true) (hnone : b.outcome = none) :
    b.phase = .fled := by
  have hundecided : ¬ (b.phase = .victory ∨ b.phase = .defeat) := by
    rw [← h.outcome, hnone]
    simp
  simpa [isOver, Phase.isTerminal, not_or.1 hundecided] using hover

theorem Command.IsReply.fits (h : k.IsReply) (b : Battle) : k.Fits b := by
  rintro rfl
  exact h.elim

theorem phase_of_fells (h : Fells b k) : b.phase = .fled := by
  cases k with
  | chooseOption id => exact h.1
  | _ => exact h.elim

theorem decided_of_fells {id : String} (h : Standing ts b) (hfells : Fells b (.chooseOption id))
    (hok : b.chooseOption id = .ok b') : b'.phase = .victory ∨ b'.phase = .defeat := by
  obtain ⟨hphase, d, rest, o, e, x, hdialogs, hoption, hevent, hperform, hfelled⟩ := hfells
  have hover : b.isOver = true := by simp [isOver, hphase, Phase.isTerminal]
  have hnone : b.outcome = none := by
    refine Option.not_isSome_iff_eq_none.1 (mt h.outcome.1 ?_)
    simp [hphase]
  have hxoutcome : x.outcome = b.outcome := (happen_leaves (perform_happens e hperform)).2.2
  simp only [chooseOption, hdialogs, hoption, hevent, hperform, Fallible.ok_bind] at hok
  obtain ⟨y, hend, hok⟩ := Fallible.bind_eq_ok.1 hok
  rcases checkEnd_cases hend with
    ⟨-, houtcome | hcontested⟩ | ⟨-, -, phase, outcome, dice, log, notices, hdecided, rfl⟩
  · simp [hxoutcome, hnone] at houtcome
  · exact absurd hcontested hfelled
  · have hy : isOver { x with phase, resume := [], outcome := some outcome, dice, log, notices } =
        true := by
      rcases hdecided with rfl | rfl
      all_goals rfl
    rwa [(settled_of_afterDialog hy hok).1]

theorem settled_of_chooseOption {id : String} (h : Standing ts b) (hover : b.isOver = true)
    (hspares : ¬ Fells b (.chooseOption id)) (hok : b.chooseOption id = .ok b') :
    Settled b b' := by
  rcases chooseOption_cases hok with
    rfl | ⟨d, rest, o, hdialogs, hoption, ⟨-, hafter⟩ | ⟨e, x, y, hevent, hperform, hend, hafter⟩⟩
  · exact ⟨rfl, rfl⟩
  · exact settled_of_afterDialog (b := { b with dialogs := rest }) hover hafter
  · have hhappen := perform_happens e hperform
    have hx : Settled b x :=
      ⟨happen_keeps (b := { b with dialogs := rest }) (.inr hover) hhappen,
        (happen_leaves hhappen).2.2⟩
    rcases checkEnd_cases hend with ⟨rfl, -⟩ | ⟨hnone, hfelled, -⟩
    · exact hx.trans (settled_of_afterDialog (hx.isOver hover) hafter)
    · have hphase := phase_eq_fled h hover (hx.2 ▸ hnone)
      exact absurd ⟨hphase, d, rest, o, e, x, hdialogs, hoption, hevent, hperform, hfelled⟩ hspares

theorem settled_of_reply (h : Standing ts b) (hover : b.isOver = true) (hk : k.IsReply)
    (hspares : ¬ Fells b k) (hok : k.apply b = .ok b') : Settled b b' := by
  cases k with
  | selectAction o =>
      rcases selectAction_cases hok with rfl | ⟨hphase, -⟩
      · exact ⟨rfl, rfl⟩
      · exact absurd hphase (phase_ne_of_over hover rfl)
  | selectTargets ids =>
      rcases selectTargets_cases hok with rfl | ⟨o, c, -, hphase, -⟩
      · exact ⟨rfl, rfl⟩
      · exact absurd hphase (phase_ne_of_over hover rfl)
  | cancelTargets =>
      cases hok
      rcases cancelTargets_cases b with hsame | ⟨hphase, -⟩
      · rw [hsame]
        exact ⟨rfl, rfl⟩
      · exact absurd hphase (phase_ne_of_over hover rfl)
  | queueDialog d =>
      have hhappen : Relation.ReflTransGen Happens b b' := .single (.dialog hok)
      exact ⟨happen_keeps (.inr hover) hhappen, (happen_leaves hhappen).2.2⟩
  | dismissDialog =>
      rcases dismissDialog_cases hok with rfl | ⟨d, rest, -, -, hafter⟩
      · exact ⟨rfl, rfl⟩
      · exact settled_of_afterDialog (b := { b with dialogs := rest }) hover hafter
  | chooseOption id => exact settled_of_chooseOption h hover hspares hok
  | _ => exact hk.elim

theorem not_overturns {ks : List Command} (h : Paused ts b) (hover : b.isOver = true)
    (hphase : b.phase ≠ .fled) (hks : ∀ k ∈ ks, k.IsReply) : ¬ Overturns b ks := by
  induction ks generalizing b with
  | nil => exact id
  | cons k ks ih =>
      have hk := hks k (List.mem_cons_self ..)
      have hspares : ¬ Fells b k := mt phase_of_fells hphase
      rintro (hfells | ⟨c, hok, hrest⟩)
      · exact hspares hfells
      · have hc := settled_of_reply h.standing hover hk hspares hok
        exact ih (h.apply (hk.fits b) hok) (hc.isOver hover) (hc.1 ▸ hphase)
          (fun k hk => hks k (.tail _ hk)) hrest

theorem settled_iff {ks : List Command} (h : Paused ts b) (hover : b.isOver = true)
    (hks : ∀ k ∈ ks, k.IsReply) (hok : b.follow ks = .ok b') :
    Settled b b' ↔ ¬ Overturns b ks := by
  induction ks generalizing b with
  | nil =>
      cases hok
      exact iff_of_true ⟨rfl, rfl⟩ id
  | cons k ks ih =>
      obtain ⟨c, hc, hok⟩ := Fallible.bind_eq_ok.1 hok
      have hk := hks k (List.mem_cons_self ..)
      have hrest : ∀ k ∈ ks, k.IsReply := fun k hk => hks k (.tail _ hk)
      have hpaused := h.apply (hk.fits b) hc
      by_cases hfells : Fells b k
      · -- From here on the battle is decided, so that it does not come back to the flight.
        have hdecided : c.phase = .victory ∨ c.phase = .defeat := by
          cases k with
          | chooseOption id => exact decided_of_fells h.standing hfells hc
          | _ => exact hfells.elim
        have hcover : c.isOver = true := by
          rcases hdecided with heq | heq
          all_goals simp [isOver, heq, Phase.isTerminal]
        have hne : c.phase ≠ .fled := by
          rcases hdecided with heq | heq
          all_goals simp [heq]
        have hsettled := (ih hpaused hcover hrest hok).2 (not_overturns hpaused hcover hne hrest)
        refine iff_of_false (fun hsame => hne ?_) (not_not_intro (.inl hfells))
        rw [← hsettled.1, hsame.1, phase_of_fells hfells]
      · have hsettled := settled_of_reply h.standing hover hk hfells hc
        have hsame : Overturns b (k :: ks) ↔ Overturns c ks := by
          simp [Overturns, hfells, hc]
        rw [hsame, ← ih hpaused (hsettled.isOver hover) hrest hok, Settled, Settled, hsettled.1,
          hsettled.2]

/-- Replies to a battle that is over change neither its phase nor its outcome, except for an answer
after a flight that leaves a side without anyone alive. -/
theorem settled_iff_not_overturns {b₀ b₁ b b' : Battle} {player : Option Character}
    {enemies : Option (List Enemy)} {ks : List Command}
    (h₀ : b₀.assemble player enemies = .ok b₁) (h : Course (fun _ => True) b₁ b)
    (hover : b.isOver = true) (hks : ∀ k ∈ ks, k.IsReply) (hok : b.follow ks = .ok b') :
    (b'.phase = b.phase ∧ b'.outcome = b.outcome ↔ ¬ Overturns b ks) ∧
      (b.phase ≠ .fled → b'.phase = b.phase ∧ b'.outcome = b.outcome) := by
  have hb := (Paused.assemble h₀).course h
  have hiff := settled_iff hb hover hks hok
  exact ⟨hiff, fun hphase => hiff.2 (not_overturns hb hover hphase hks)⟩

def brave : Battle :=
  create (.plain (.plain "hero")) none ⟨[], [], .standard⟩ { fleeChance := 1 } {}

def farewell : Dialog := ⟨"", "", [.option "yes" "" (some (.flee (some "slime")))]⟩

theorem brave_runs :
    ∃ b₁ b b', brave.assemble none (some [.plain "slime"]) = .ok b₁ ∧
      Course (fun _ => True) b₁ b ∧ b.phase = .fled ∧
      b.follow [.queueDialog farewell, .chooseOption "yes"] = .ok b' ∧ b'.phase = .victory := by
  have hok : (do
      let b₁ ← brave.assemble none (some [.plain "slime"])
      let c ← b₁.startWithin 2
      let b ← c.selectAction { kind := .flee, actorId := "hero" }
      let d ← b.queueDialog farewell
      let b' ← d.chooseOption "yes"
      return (b₁.phase, b.phase, b'.phase)).toOption = some (.start, .fled, .victory) := by
    decide +kernel
  obtain ⟨phases, h, hphases⟩ := Fallible.exists_eq_ok_and (f := id) (by simpa using hok)
  simp only [Fallible.bind_eq_ok, Except.ok.injEq] at h
  obtain ⟨b₁, h₁, c, hstart, b, hflee, d, hqueue, b', hchoose, rfl⟩ := h
  obtain ⟨hfirst, hfled, hvictory⟩ : b₁.phase = .start ∧ b.phase = .fled ∧ b'.phase = .victory := by
    simpa using hphases
  refine ⟨b₁, b, b', h₁, ?_, hfled, ?_, hvictory⟩
  · refine .tail (.single ⟨.start, trivial, fun _ => hfirst, start_of_startWithin hstart⟩) ?_
    exact ⟨.selectAction { kind := .flee, actorId := "hero" }, trivial, by rintro ⟨⟩, hflee⟩
  · simp only [follow, Command.apply, hqueue, hchoose, Fallible.ok_bind]

theorem settled_iff_not_overturns_brave :
    ∃ b₁ b b', brave.assemble none (some [.plain "slime"]) = .ok b₁ ∧
      Course (fun _ => True) b₁ b ∧ b.isOver = true ∧
      b.follow [.queueDialog farewell, .chooseOption "yes"] = .ok b' ∧
      (b'.phase = b.phase ∧ b'.outcome = b.outcome ↔
        ¬ Overturns b [.queueDialog farewell, .chooseOption "yes"]) := by
  obtain ⟨b₁, b, b', h₁, hcourse, hfled, hok, -⟩ := brave_runs
  have hover : b.isOver = true := by simp [isOver, hfled, Phase.isTerminal]
  have hks : ∀ k ∈ [Command.queueDialog farewell, .chooseOption "yes"], k.IsReply := by
    simp [Command.IsReply]
  exact ⟨b₁, b, b', h₁, hcourse, hover, hok,
    (settled_iff_not_overturns h₁ hcourse hover hks hok).1⟩

/-- The answer to a question after the flight turns the flight into a victory. -/
theorem not_settled_brave :
    ∃ b₁ b b', brave.assemble none (some [.plain "slime"]) = .ok b₁ ∧
      Course (fun _ => True) b₁ b ∧ b.isOver = true ∧
      b.follow [.queueDialog farewell, .chooseOption "yes"] = .ok b' ∧
      ¬ (b'.phase = b.phase ∧ b'.outcome = b.outcome) := by
  obtain ⟨b₁, b, b', h₁, hcourse, hfled, hok, hvictory⟩ := brave_runs
  refine ⟨b₁, b, b', h₁, hcourse, by simp [isOver, hfled, Phase.isTerminal], hok, ?_⟩
  simp [hfled, hvictory]

end Skirmish.Battle

import Skirmish.Proofs.Battle.CommandCases
import Skirmish.Proofs.Battle.Footprint
import Skirmish.Proofs.Battle.Rewards

namespace Skirmish.Battle

variable {b b' c d : Battle} {m n : Nat}

/-- The battle is won, and nobody has noticed yet. -/
def Reckons (b : Battle) : Prop := b.outcome = none ∧ b.players ≠ [] ∧ b.enemies = []

/-- What a battle is made of; the number says how often the move computes rewards. -/
inductive Move : Nat → Battle → Battle → Prop
  | note {b : Battle} (phase : Phase) (resume : List Phase) (pending : Option Order)
      (log : List String) (dialogs : List Dialog) (triggers : Trigger.Book)
      (listeners : List Nat) (notices : List Phase) :
      Move 0 b { b with phase, resume, pending, log, dialogs, triggers, listeners, notices }
  | advance {b : Battle} : Move 0 b { b with index := b.index + 1 }
  | round {b : Battle} {turn : Nat} {queue : List Initiative.Entry} {dice : Dice}
      (h : (Initiative.queue b.config.initiativeVariance b.fighters.values).run.run b.dice =
        (.ok queue, dice)) :
      Move 0 b { b with turn, index := 0, queue, dice }
  | begin {b c : Battle} {f : Fighter} (h : b.beginTurn f = .ok c) : Move 0 b c
  | choose {b c : Battle} {f : Fighter} {o : Order} (h : b.enemyOrder f = .ok (o, c)) : Move 0 b c
  | order {b c : Battle} {f : Fighter} {o : Order} (h : b.runOrder f o = .ok c) : Move 0 b c
  | flee {b c : Battle} {chance : Quantity} {o : Chance.Outcome}
      (h : b.roll (Chance.test chance) id = .ok (o, c)) : Move 0 b c
  | event {b c : Battle} (h : Happens b c) : Move 0 b c
  | settle {b : Battle} {f g : Fighter} (h : refresh b.rules (withoutMagic f) = .ok g) :
      Move 0 b (b.setFighter g)
  | look {b c : Battle} (hidle : ¬ b.Reckons) (h : b.checkEnd = .ok c) : Move 0 b c
  | reckon {b c : Battle} (hreckons : b.Reckons) (h : b.checkEnd = .ok c) : Move 1 b c

inductive Moves (b : Battle) : Nat → Battle → Prop
  | none : Moves b 0 b
  | move {m n : Nat} {c d : Battle} (h : Moves b m c) (hmove : Move n c d) : Moves b (m + n) d

theorem Moves.trans (h : Moves b m c) (h' : Moves c n d) : Moves b (m + n) d := by
  induction h' with
  | none => exact h
  | move _ hmove ih =>
    rw [← Nat.add_assoc]
    exact ih.move hmove

/-- How often the rewards of the battle have been computed, as its outcome tells. -/
def reckonings (b : Battle) : Nat := if (b.outcome.bind Outcome.rewards).isSome then 1 else 0

theorem reckonings_congr (h : c.outcome = b.outcome) : c.reckonings = b.reckonings := by
  rw [reckonings, reckonings, h]

theorem reckonings_of_none (h : b.outcome = none) : b.reckonings = 0 := by
  rw [reckonings, h]
  rfl

theorem win_reckonings (h : b.win = .ok c) : c.reckonings = 1 := by
  obtain ⟨⟨r, d⟩, -, h⟩ := Fallible.bind_eq_ok.1 h
  cases h
  rfl

theorem checkEnd_of_reckons (h : b.Reckons) : b.checkEnd = b.win := by
  obtain ⟨hnone, hplayers, henemies⟩ := h
  simp [checkEnd, hnone, hplayers, henemies]

theorem checkEnd_of_not_reckons (h : ¬ b.Reckons) :
    b.checkEnd = .ok b ∨ b.outcome = none ∧ b.checkEnd = .ok b.lose := by
  rw [checkEnd]
  split
  next => exact .inl rfl
  next hdone =>
    have hnone : b.outcome = none := by simpa using hdone
    split
    next => exact .inr ⟨hnone, rfl⟩
    next hplayers =>
      rw [if_neg]
      · exact .inl rfl
      · intro henemies
        exact h ⟨hnone, by simpa using hplayers, by simpa using henemies⟩

/-- Of the moves that check the end, those that count run the rewards, once: the dice go on by the
drops that the enemies declare. The others leave the dice alone. -/
theorem checkEnd_draws (h : b.checkEnd = .ok c) :
    (b.Reckons → c.dice = b.dice.after (b.origins.values.flatMap Enemy.drops).length ∧
      ∃ r, (rewards b.origins.values).run.run b.dice = (.ok r, c.dice) ∧
        c.outcome.bind Outcome.rewards = some r) ∧
    (¬ b.Reckons → c.dice = b.dice) := by
  refine ⟨fun hreckons => ?_, fun hidle => ?_⟩
  · rw [checkEnd_of_reckons hreckons] at h
    obtain ⟨⟨r, d⟩, hroll, h⟩ := Fallible.bind_eq_ok.1 h
    obtain ⟨dice, hrun, rfl⟩ := roll_eq_ok hroll
    cases h
    exact ⟨congrArg Prod.snd (hrun.symm.trans (rewards_run _ _)), r, hrun, rfl⟩
  · rcases checkEnd_of_not_reckons hidle with hsame | ⟨-, hlost⟩
    · cases hsame.symm.trans h
      rfl
    · cases hlost.symm.trans h
      rfl

theorem happens_outcome (h : Happens b c) : c.outcome = b.outcome :=
  (happen_leaves (.single h)).2.2

theorem Move.reckonings (h : Move n b c) : c.reckonings = b.reckonings + n := by
  cases h with
  | begin h =>
    obtain ⟨fighters, dice, log, rfl⟩ := Acted.beginTurn h
    rfl
  | choose h =>
    obtain ⟨dice, -, rfl⟩ := roll_eq_ok h
    rfl
  | order h =>
    obtain ⟨fighters, dice, log, rfl⟩ := Acted.runOrder h
    rfl
  | flee h =>
    obtain ⟨dice, -, rfl⟩ := roll_eq_ok h
    rfl
  | event h => exact reckonings_congr (happens_outcome h)
  | look hidle h =>
    rcases checkEnd_of_not_reckons hidle with hsame | ⟨hnone, hlost⟩
    · cases hsame.symm.trans h
      rfl
    · cases hlost.symm.trans h
      rw [reckonings_of_none hnone]
      rfl
  | reckon hreckons h =>
    rw [checkEnd_of_reckons hreckons] at h
    rw [win_reckonings h, reckonings_of_none hreckons.1]
  | _ => rfl

theorem Moves.reckonings (h : Moves b n c) : c.reckonings = b.reckonings + n := by
  induction h with
  | none => rfl
  | move _ hmove ih => rw [hmove.reckonings, ih, Nat.add_assoc]

def Leads (b c : Battle) : Prop := ∃ n, Moves b n c

namespace Leads

theorem refl (b : Battle) : Leads b b := ⟨0, .none⟩

theorem trans (h : Leads b c) (h' : Leads c d) : Leads b d := by
  obtain ⟨m, hm⟩ := h
  obtain ⟨n, hn⟩ := h'
  exact ⟨m + n, hm.trans hn⟩

theorem single (h : Move n b c) : Leads b c := ⟨0 + n, Moves.none.move h⟩

theorem note (h : c = { b with
      phase := c.phase, resume := c.resume, pending := c.pending, log := c.log
      dialogs := c.dialogs, triggers := c.triggers, listeners := c.listeners
      notices := c.notices }) : Leads b c := by
  rw [h]
  exact single (.note _ _ _ _ _ _ _ _)

theorem checkEnd (h : b.checkEnd = .ok c) : Leads b c := by
  by_cases hreckons : b.Reckons
  · exact single (.reckon hreckons h)
  · exact single (.look hreckons h)

theorem nextTurn (h : b.nextTurn = .ok c) : Leads b c := by
  rcases nextTurn_cases h with ⟨-, rfl⟩ | ⟨-, turn, queue, dice, hrun, hround⟩
  · exact single .advance
  · rcases hround with ⟨-, rfl⟩ | ⟨-, hend⟩
    · exact single (.round hrun)
    · exact (single (.round hrun)).trans (checkEnd hend)

theorem endTurn (h : b.endTurn = .ok c) : Leads b c :=
  (note rfl).trans (nextTurn h)

theorem executePending (h : b.executePending = .ok c) : Leads b c := by
  rw [Battle.executePending] at h
  split at h
  next =>
    cases h
    exact refl _
  next o ho =>
    refine (note rfl).trans (c := b.enter .actionExecute) ?_
    dsimp only at h
    split at h
    next => exact (note rfl).trans (endTurn h)
    next f hf =>
      obtain ⟨x, hrun, h⟩ := Fallible.bind_eq_ok.1 h
      obtain ⟨y, hend, h⟩ := Fallible.bind_eq_ok.1 h
      have hdone : Leads x y := (note rfl).trans (checkEnd hend)
      refine (single (.order hrun)).trans (hdone.trans ?_)
      split at h
      · exact endTurn h
      · cases h
        exact refl _

theorem dispatch {f : Fighter} (h : b.dispatch f = .ok c) : Leads b c := by
  rw [Battle.dispatch] at h
  split at h
  next => exact endTurn h
  next =>
    split at h
    next =>
      cases h
      exact note rfl
    next =>
      obtain ⟨⟨o, x⟩, horder, h⟩ := Fallible.bind_eq_ok.1 h
      exact (single (.choose horder)).trans ((note rfl).trans (executePending h))

theorem happens (h : Relation.ReflTransGen Happens b c) : Leads b c := by
  induction h with
  | refl => exact refl _
  | tail _ hevent ih => exact ih.trans (single (.event hevent))

theorem checkTriggers (h : b.checkTriggers = .ok c) : Leads b c := by
  obtain ⟨events, -, h⟩ := Fallible.bind_eq_ok.1 h
  exact (note rfl).trans (happens (performAll_happens _ h))

theorem startTurn (h : b.startTurn = .ok c) : Leads b c := by
  refine (note rfl).trans (c := { b with phase := .turnStart }) ?_
  rcases startTurn_cases h with
    ⟨-, hnext⟩ | ⟨f, x, y, z, -, -, hbegin, htriggers, hend, hgoes⟩
  · exact nextTurn hnext
  · refine (single (.begin hbegin)).trans ((checkTriggers htriggers).trans ?_)
    refine (checkEnd hend).trans ?_
    rcases hgoes with ⟨-, rfl⟩ | ⟨-, hdispatch⟩
    · exact note rfl
    · exact dispatch hdispatch

theorem run (h : b.run = .ok c) : Leads b c :=
  (run_induction (P := Leads b) (fun _ _ hb _ hturn => hb.trans (startTurn hturn)) h (refl b)).1

theorem attemptFlee (h : b.attemptFlee = .ok c) : Leads b c := by
  rw [Battle.attemptFlee] at h
  obtain ⟨chance, -, h⟩ := Fallible.bind_eq_ok.1 h
  obtain ⟨⟨o, x⟩, hroll, h⟩ := Fallible.bind_eq_ok.1 h
  refine (single (.flee hroll)).trans ?_
  dsimp only at h
  split at h
  next =>
    cases h
    exact note rfl
  next =>
    obtain ⟨y, hend, h⟩ := Fallible.bind_eq_ok.1 h
    exact (note rfl).trans ((endTurn hend).trans (run h))

theorem resumePhase (h : b.resumePhase = .ok c) : Leads b c := by
  rcases resumePhase_cases h with ⟨-, rfl⟩ | ⟨-, x, hrun, hgoes⟩
  · exact note rfl
  · refine (note rfl).trans (c := b.resumed) ?_
    rcases hgoes with ⟨-, hnext⟩ | ⟨f, -, hdispatch⟩
    · exact (nextTurn hnext).trans (run hrun)
    · exact (dispatch hdispatch).trans (run hrun)

theorem afterDialog (h : b.afterDialog = .ok c) : Leads b c := by
  rcases afterDialog_cases h with ⟨-, rfl⟩ | ⟨-, -, hresume⟩
  · exact note rfl
  · exact resumePhase hresume

theorem start (h : b.start = .ok c) : Leads b c := by
  obtain ⟨⟨queue, x⟩, hroll, h⟩ := Fallible.bind_eq_ok.1 h
  obtain ⟨dice, hqueue, rfl⟩ := roll_eq_ok hroll
  have hround : Leads b { b with turn := 1, index := 0, queue, dice } := single (.round hqueue)
  exact hround.trans ((note rfl).trans (run h))

theorem selectAction {o : Order} (h : b.selectAction o = .ok c) : Leads b c := by
  rcases selectAction_cases h with rfl | ⟨-, -, hgoes⟩
  · exact refl _
  · refine (note rfl).trans (c := { b with pending := some o }) ?_
    rcases hgoes with ⟨-, x, hdone, hrun⟩ | ⟨-, hflee⟩ | ⟨-, rfl⟩
    · exact (executePending hdone).trans (run hrun)
    · exact attemptFlee hflee
    · exact note rfl

theorem selectTargets {ids : List String} (h : b.selectTargets ids = .ok c) : Leads b c := by
  rcases selectTargets_cases h with rfl | ⟨o, x, -, -, hdone, hrun⟩
  · exact refl _
  · exact (note rfl).trans
      ((executePending hdone).trans (run hrun))

theorem dismissDialog (h : b.dismissDialog = .ok c) : Leads b c := by
  rcases dismissDialog_cases h with rfl | ⟨-, rest, -, -, hafter⟩
  · exact refl _
  · exact (note rfl).trans (afterDialog hafter)

theorem chooseOption {id : String} (h : b.chooseOption id = .ok c) : Leads b c := by
  rcases chooseOption_cases h with rfl | ⟨d, rest, o, -, -, hgoes⟩
  · exact refl _
  · refine (note rfl).trans (c := { b with dialogs := rest }) ?_
    rcases hgoes with ⟨-, hafter⟩ | ⟨e, x, y, -, hdone, hend, hafter⟩
    · exact afterDialog hafter
    · exact (happens (perform_happens e hdone)).trans ((checkEnd hend).trans (afterDialog hafter))

theorem settleAll {ids : List String} (h : b.settleAll ids = .ok c) : Leads b c := by
  induction ids generalizing b with
  | nil =>
    cases h
    exact refl _
  | cons id ids ih =>
    rw [Battle.settleAll] at h
    split at h
    next => exact ih h
    next =>
      obtain ⟨g, hg, h⟩ := Fallible.bind_eq_ok.1 h
      exact (single (.settle (Fallible.leaving_eq_ok.1 hg))).trans (ih h)

theorem close (h : b.close = .ok c) : Leads b c := by
  obtain ⟨x, hsettle, h⟩ := Fallible.bind_eq_ok.1 h
  cases h
  exact (settleAll hsettle).trans (note rfl)

/-- Every command is made of moves. -/
theorem apply {k : Command} (h : k.apply b = .ok c) : Leads b c := by
  cases k with
  | start => exact start h
  | selectAction o => exact selectAction h
  | selectTargets ids => exact selectTargets h
  | cancelTargets =>
    cases h
    rcases cancelTargets_cases b with hnothing | ⟨-, hcancel⟩
    · rw [hnothing]
      exact refl b
    · rw [hcancel]
      exact note rfl
  | queueDialog d => exact single (.event (.dialog h))
  | dismissDialog => exact dismissDialog h
  | chooseOption id => exact chooseOption h
  | perform e => exact happens (perform_happens e h)
  | close => exact close h

theorem follow {ks : List Command} (h : b.follow ks = .ok c) : Leads b c := by
  induction ks generalizing b with
  | nil =>
    cases h
    exact refl _
  | cons k ks ih =>
    obtain ⟨x, hx, h⟩ := Fallible.bind_eq_ok.1 h
    exact (apply hx).trans (ih h)

end Leads

variable {player : Option Character} {enemies : Option (List Enemy)}

end Skirmish.Battle

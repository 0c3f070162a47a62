import Skirmish.Proofs.Battle.Hush

namespace Skirmish.Battle

variable {b b' c : Battle} {again : Result Battle}

/-- A step from one battle to the next, beside which the hushed battle does the same. -/
structure Echo (b b' : Battle) (again : Result Battle) : Prop where
  hushed : again = .ok b'.hush
  dialogs : b'.dialogs = b.dialogs
  triggers : b'.triggers = b.triggers
  resume : b.resume = [] → b'.resume = []
  phase : b'.phase = .dialog → b.phase = .dialog

namespace Echo

theorem refl (b : Battle) : Echo b b (.ok b.hush) := ⟨rfl, rfl, rfl, id, id⟩

theorem trans {op : Battle → Result Battle} (h : Echo b c again) (h' : Echo c b' (op c.hush)) :
    Echo b b' (again >>= op) where
  hushed := by rw [h.hushed, Fallible.ok_bind, h'.hushed]
  dialogs := h'.dialogs.trans h.dialogs
  triggers := h'.triggers.trans h.triggers
  resume := h'.resume ∘ h.resume
  phase := h.phase ∘ h'.phase

theorem of_apart {op : Battle → Result Battle} (hop : Apart op) (h : op b = .ok b') :
    Echo b b' (op b.hush) :=
  have hsame := hop.sameAside h
  ⟨hop.hush h, hsame.dialogs, hsame.triggers, hsame.resume.trans, hsame.phase ▸ id⟩

theorem of_beside (h : Echo c b' again) (hdialogs : c.dialogs = b.dialogs)
    (htriggers : c.triggers = b.triggers) (hresume : b.resume = [] → c.resume = [])
    (hphase : c.phase = .dialog → b.phase = .dialog) : Echo b b' again where
  hushed := h.hushed
  dialogs := h.dialogs.trans hdialogs
  triggers := h.triggers.trans htriggers
  resume := h.resume ∘ hresume
  phase := hphase ∘ h.phase

end Echo

theorem hush_enter {p : Phase} (hp : p ≠ .dialog) : (b.enter p).hush = b.hush.enter p := by
  simp [enter, notify, hush, hp]

theorem enter_echo {p : Phase} (hp : p ≠ .dialog) :
    Echo b (b.enter p) (.ok (b.hush.enter p)) :=
  ⟨by rw [hush_enter hp], rfl, rfl, id, fun h => absurd h hp⟩

theorem win_echo (h : b.win = .ok b') :
    Echo b b' b.hush.win ∧ b'.isOver = true ∧ b'.resume = [] := by
  obtain ⟨⟨r, c⟩, hroll, h⟩ := Fallible.bind_eq_ok.1 h
  have hagain : roll { b.hush with phase := .victory, resume := [] }
      (rewards b.hush.origins.values) id = .ok (r, c.hush) :=
    roll_hush hroll
  obtain ⟨dice, -, rfl⟩ := roll_eq_ok hroll
  cases h
  refine ⟨⟨?_, rfl, rfl, fun _ => rfl, by rintro ⟨⟩⟩, rfl, rfl⟩
  rw [win, hagain]
  rfl

theorem checkEnd_echo (h : b.checkEnd = .ok b') :
    Echo b b' b.hush.checkEnd ∧ (b' = b ∨ b'.isOver = true ∧ b'.resume = []) := by
  have houtcome : b.hush.outcome = b.outcome := rfl
  have hplayers : b.hush.players = b.players := rfl
  have henemies : b.hush.enemies = b.enemies := rfl
  simp only [checkEnd, houtcome, hplayers, henemies] at h ⊢
  split at h
  next hdone =>
    cases h
    rw [if_pos hdone]
    exact ⟨.refl b, .inl rfl⟩
  next hdone =>
    rw [if_neg hdone]
    split at h
    next hlost =>
      cases h
      rw [if_pos hlost]
      exact ⟨⟨rfl, rfl, rfl, fun _ => rfl, by rintro ⟨⟩⟩, .inr ⟨rfl, rfl⟩⟩
    next hlost =>
      rw [if_neg hlost]
      split at h
      next hwon =>
        rw [if_pos hwon]
        obtain ⟨hecho, hover⟩ := win_echo h
        exact ⟨hecho, .inr hover⟩
      next hwon =>
        cases h
        rw [if_neg hwon]
        exact ⟨.refl b, .inl rfl⟩

theorem nextTurn_echo (h : b.nextTurn = .ok b') : Echo b b' b.hush.nextTurn := by
  have hindex : b.hush.index = b.index := rfl
  have hqueue : b.hush.queue = b.queue := rfl
  simp only [nextTurn, hindex, hqueue] at h ⊢
  split at h
  next hmore =>
    cases h
    rw [if_pos hmore]
    exact ⟨rfl, rfl, rfl, id, id⟩
  next hmore =>
    rw [if_neg hmore]
    obtain ⟨⟨queue, c⟩, hroll, h⟩ := Fallible.bind_eq_ok.1 h
    have hagain : Battle.rollQueue (hush { b with turn := b.turn + 1, index := 0 }) =
        .ok (queue, c.hush) := roll_hush hroll
    change Echo b b' (Battle.rollQueue (hush { b with turn := b.turn + 1, index := 0 }) >>= _)
    rw [hagain, Fallible.ok_bind]
    obtain ⟨dice, -, rfl⟩ := roll_eq_ok hroll
    split at h
    next hempty =>
      rw [if_pos hempty]
      exact (checkEnd_echo h).1.of_beside rfl rfl id id
    next hempty =>
      cases h
      rw [if_neg hempty]
      exact ⟨rfl, rfl, rfl, id, id⟩

theorem endTurn_echo (h : b.endTurn = .ok b') : Echo b b' b.hush.endTurn :=
  (enter_echo (p := .turnEnd) (by simp)).trans (nextTurn_echo h)

theorem executePending_echo (h : b.executePending = .ok b') : Echo b b' b.hush.executePending := by
  have hpending : b.hush.pending = b.pending := rfl
  simp only [executePending, hpending] at h ⊢
  split at h
  next =>
    cases h
    exact .refl b
  next o _ =>
    have henter : b.hush.enter .actionExecute = (b.enter .actionExecute).hush :=
      (hush_enter (p := .actionExecute) (by simp)).symm
    have hfighter : (b.enter .actionExecute).hush.fighter? o.actorId =
        (b.enter .actionExecute).fighter? o.actorId := rfl
    rw [henter, hfighter]
    refine Echo.of_beside (c := b.enter .actionExecute) ?_ rfl rfl id (by rintro ⟨⟩)
    split at h
    next => exact (endTurn_echo h).of_beside rfl rfl id id
    next actor _ =>
      obtain ⟨c, hrun, h⟩ := Fallible.bind_eq_ok.1 h
      obtain ⟨d, hend, h⟩ := Fallible.bind_eq_ok.1 h
      have hrun := Echo.of_apart (runOrder_apart actor o) hrun
      have hend := (checkEnd_echo hend).1.of_beside (b := c) rfl rfl id id
      refine hrun.trans (hend.trans ?_)
      have hne : d.phase ≠ .dialog := by
        intro hdialog
        cases hrun.phase (hend.phase hdialog)
      rw [hush_phase hne]
      split at h
      next hgoes =>
        rw [if_pos hgoes]
        exact endTurn_echo h
      next hgoes =>
        cases h
        rw [if_neg hgoes]
        exact .refl _

theorem dispatch_echo {f : Fighter} (h : b.dispatch f = .ok b') :
    Echo b b' (b.hush.dispatch f) := by
  simp only [dispatch] at h ⊢
  split at h
  next hfallen =>
    rw [if_pos hfallen]
    exact endTurn_echo h
  next hfallen =>
    rw [if_neg hfallen]
    split at h
    next hplayer =>
      cases h
      rw [if_pos hplayer]
      exact enter_echo (p := .actionSelect) (by simp)
    next hplayer =>
      rw [if_neg hplayer]
      obtain ⟨⟨o, c⟩, hroll, h⟩ := Fallible.bind_eq_ok.1 h
      have hagain : b.hush.enemyOrder f = .ok (o, c.hush) := roll_hush hroll
      rw [hagain, Fallible.ok_bind]
      obtain ⟨dice, -, rfl⟩ := roll_eq_ok hroll
      exact (executePending_echo h).of_beside rfl rfl id id

def resumeTurn (b : Battle) : Result Battle :=
  match b.current? with
  | none => b.nextTurn
  | some f => b.dispatch f

theorem resumeTurn_echo (h : b.resumeTurn = .ok b') : Echo b b' b.hush.resumeTurn := by
  have hcurrent : b.hush.current? = b.current? := rfl
  simp only [resumeTurn, hcurrent] at h ⊢
  split at h
  next => exact nextTurn_echo h
  next => exact dispatch_echo h

end Skirmish.Battle

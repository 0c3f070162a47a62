import Skirmish.Proofs.Battle.Calls

namespace Skirmish.Battle

variable {b b' : Battle}

theorem attemptFlee_cases (h : b.attemptFlee = .ok b') :
    (∃ dice log notices,
        b' = { b with phase := .fled, resume := [], pending := none, dice, log, notices }) ∨
      ∃ dice log c, endTurn { b with pending := none, dice, log } = .ok c ∧ c.run = .ok b' := by
  simp only [attemptFlee, Fallible.bind_eq_ok, Prod.exists] at h
  obtain ⟨chance, -, o, c, hroll, h⟩ := h
  obtain ⟨dice, -, rfl⟩ := roll_eq_ok hroll
  split at h
  next =>
    cases h
    exact .inl ⟨_, _, _, rfl⟩
  next =>
    obtain ⟨d, hend, h⟩ := Fallible.bind_eq_ok.1 h
    exact .inr ⟨_, _, d, hend, h⟩

theorem selectAction_cases {o : Order} (h : b.selectAction o = .ok b') :
    b' = b ∨ b.phase = .actionSelect ∧ b.current?.map Fighter.id = some o.actorId ∧
      ((o.kind = .defend ∧
          ∃ c, executePending { b with pending := some o } = .ok c ∧ c.run = .ok b') ∨
        (o.kind = .flee ∧ attemptFlee { b with pending := some o } = .ok b') ∨
        (o.kind = .skill ∨ o.kind = .item) ∧
          b' = enter { b with pending := some o } .targetSelect) := by
  simp only [selectAction] at h
  split at h
  next =>
    cases h
    exact .inl rfl
  next hphase =>
    have hphase : b.phase = .actionSelect := by simpa using hphase
    split at h
    next => cases h
    next hknown =>
      split at h
      next =>
        cases h
        exact .inl rfl
      next hactor =>
        refine .inr ⟨hphase, by simpa using hactor, ?_⟩
        split at h
        next hkind => exact .inl ⟨hkind, Fallible.bind_eq_ok.1 h⟩
        next hkind => exact .inr (.inl ⟨hkind, h⟩)
        next hdefend hflee =>
          cases h
          refine .inr (.inr ⟨?_, rfl⟩)
          cases hkind : o.kind with
          | skill => exact .inl rfl
          | item => exact .inr rfl
          | defend => exact absurd hkind hdefend
          | flee => exact absurd hkind hflee
          | other name => exact absurd hkind (hknown name)

theorem selectTargets_cases {ids : List String} (h : b.selectTargets ids = .ok b') :
    b' = b ∨ ∃ o c, b.pending = some o ∧ b.phase = .targetSelect ∧
      executePending { b with pending := some { o with targets := ids } } = .ok c ∧
      c.run = .ok b' := by
  simp only [selectTargets] at h
  split at h
  next =>
    cases h
    exact .inl rfl
  next o ho =>
    split at h
    next =>
      cases h
      exact .inl rfl
    next hphase =>
      obtain ⟨c, hexecute, h⟩ := Fallible.bind_eq_ok.1 h
      exact .inr ⟨o, c, ho, by simpa using hphase, hexecute, h⟩

theorem cancelTargets_cases (b : Battle) :
    b.cancelTargets = b ∨
      b.phase = .targetSelect ∧
        b.cancelTargets = enter { b with pending := none } .actionSelect := by
  rw [cancelTargets]
  split
  next => exact .inl rfl
  next hphase => exact .inr ⟨by simpa using hphase, rfl⟩

theorem afterDialog_cases (h : b.afterDialog = .ok b') :
    (b.dialogs ≠ [] ∨ b.isOver = true) ∧ b' = b.notify ∨
      b.dialogs = [] ∧ b.isOver = false ∧ b.resumePhase = .ok b' := by
  simp only [afterDialog] at h
  split at h
  next hstays =>
    cases h
    exact .inl ⟨by simpa using hstays, rfl⟩
  next hgoes =>
    obtain ⟨hdialogs, hover⟩ : b.dialogs = [] ∧ b.isOver = false := by simpa using hgoes
    exact .inr ⟨hdialogs, hover, h⟩

theorem resumePhase_cases (h : b.resumePhase = .ok b') :
    (b.resume.headD .start ≠ .turnStart ∧
        b' = notify { b with phase := b.resume.headD .start, resume := b.resume.tail }) ∨
      b.resume.headD .start = .turnStart ∧ ∃ c, c.run = .ok b' ∧
        (b.current? = none ∧ b.resumed.nextTurn = .ok c ∨
          ∃ f, b.current? = some f ∧ b.resumed.dispatch f = .ok c) := by
  by_cases hresume : b.resume.headD .start = .turnStart
  · rw [resumePhase_of_turnStart hresume] at h
    refine .inr ⟨hresume, ?_⟩
    split at h
    next hcurrent =>
      obtain ⟨c, hnext, h⟩ := Fallible.bind_eq_ok.1 h
      exact ⟨c, h, .inl ⟨hcurrent, hnext⟩⟩
    next f hcurrent =>
      obtain ⟨c, hdispatch, h⟩ := Fallible.bind_eq_ok.1 h
      exact ⟨c, h, .inr ⟨f, hcurrent, hdispatch⟩⟩
  · simp only [resumePhase, if_pos hresume] at h
    cases h
    exact .inl ⟨hresume, rfl⟩

theorem dismissDialog_cases (h : b.dismissDialog = .ok b') :
    b' = b ∨ ∃ d rest, b.dialogs = d :: rest ∧ d.options = [] ∧
      afterDialog { b with dialogs := rest } = .ok b' := by
  simp only [dismissDialog] at h
  split at h
  next =>
    cases h
    exact .inl rfl
  next d rest hdialogs =>
    split at h
    next hplain => exact .inr ⟨d, rest, hdialogs, by simpa using hplain, h⟩
    next =>
      cases h
      exact .inl rfl

theorem chooseOption_cases {id : String} (h : b.chooseOption id = .ok b') :
    b' = b ∨ ∃ d rest o, b.dialogs = d :: rest ∧ d.options.find? (·.id = id) = some o ∧
      (o.event? = none ∧ afterDialog { b with dialogs := rest } = .ok b' ∨
        ∃ e x y, o.event? = some e ∧ Battle.perform { b with dialogs := rest } e = .ok x ∧
          x.checkEnd = .ok y ∧ y.afterDialog = .ok b') := by
  simp only [chooseOption] at h
  split at h
  next =>
    cases h
    exact .inl rfl
  next d rest hdialogs =>
    split at h
    next =>
      cases h
      exact .inl rfl
    next o hoption =>
      refine .inr ⟨d, rest, o, hdialogs, hoption, ?_⟩
      split at h
      next hevent => exact .inl ⟨hevent, h⟩
      next e hevent =>
        obtain ⟨x, hperform, h⟩ := Fallible.bind_eq_ok.1 h
        obtain ⟨y, hend, h⟩ := Fallible.bind_eq_ok.1 h
        exact .inr ⟨e, x, y, hevent, hperform, hend, h⟩

end Skirmish.Battle

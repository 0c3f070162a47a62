import Skirmish.Proofs.Battle.CommandCases
import Skirmish.Proofs.Battle.Footprint

namespace Skirmish

/-- Reaches beyond the dialogs and is not made of other events. -/
def Event.isDeed : Event → Bool
  | dialog .. | multi _ | other _ => false
  | _ => true

namespace Battle

variable {b b' c : Battle} {s t : Call}

/-- Neither the field changes nor the queue. -/
structure Beside (b b' : Battle) : Prop extends SameField b b' where
  origins : b'.origins = b.origins
  queue : b'.queue = b.queue
  index : b'.index = b.index

namespace Beside

theorem of_eq
    (h : (b'.game, b'.rules, b'.config, b'.fighters, b'.origins, b'.queue, b'.index) =
      (b.game, b.rules, b.config, b.fighters, b.origins, b.queue, b.index)) : Beside b b' := by
  simp only [Prod.mk.injEq] at h
  obtain ⟨hgame, hrules, hconfig, hfighters, horigins, hqueue, hindex⟩ := h
  exact ⟨⟨hgame, hrules, hconfig, hfighters⟩, horigins, hqueue, hindex⟩

theorem refl (b : Battle) : Beside b b := .of_eq rfl

theorem queueDialog {d : Dialog} (h : b.queueDialog d = .ok b') : Beside b b' := by
  rcases queueDialog_cases h with ⟨-, notices, rfl⟩ | ⟨-, -, resume, notices, -, rfl⟩
  · exact .of_eq rfl
  · exact .of_eq rfl

theorem checkEnd (h : b.checkEnd = .ok b') : Beside b b' := by
  rcases checkEnd_cases h with ⟨rfl, -⟩ | ⟨-, -, phase, outcome, dice, log, notices, -, rfl⟩
  · exact .refl b'
  · exact .of_eq rfl

end Beside

/-- The steps of a battle, each with the call that takes it. -/
inductive Step : Call → Battle → Battle → Prop
  | beside {s : Call} {b c : Battle} (h : Beside b c) : Step s b c
  | advance {s : Call} {b : Battle} (h : b.index + 1 < b.queue.length) :
      Step s b { b with index := b.index + 1 }
  | round {s : Call} {b : Battle} {turn : Nat} {queue : List Initiative.Entry} {dice : Dice}
      (h : (Initiative.queue b.config.initiativeVariance b.fighters.values).run.run b.dice =
        (.ok queue, dice)) :
      Step s b { b with turn, index := 0, queue, dice }
  | begin {b c : Battle} {f : Fighter} (hcurrent : b.current? = some f) (halive : f.isAlive = true)
      (h : beginTurn { b with phase := .turnStart } f = .ok c) :
      Step (b, .startTurn) { b with phase := .turnStart } c
  | order {b c : Battle} {o : Order} {f : Fighter} (ho : b.pending = some o)
      (hf : b.fighter? o.actorId = some f) (h : (b.enter .actionExecute).runOrder f o = .ok c) :
      Step (b, .executePending) (b.enter .actionExecute) c
  | deed {b c : Battle} {e : Event} (he : e.isDeed = true) (h : Battle.perform b e = .ok c) :
      Step (b, .perform e) b c
  | settle {a b : Battle} {id : String} {f g : Fighter} (hf : b.fighter? id = some f)
      (h : refresh b.rules (withoutMagic f) = .ok g) :
      Step (a, .command .close) b (b.setFighter g)

abbrev Path (s : Call) : Battle → Battle → Prop :=
  Relation.ReflTransGen fun b c => ∃ t, Reaches s t ∧ Step t b c

namespace Path

theorem step (h : Step s b c) : Path s b c := .single ⟨s, .refl, h⟩

theorem beside (h : Beside b c) : Path s b c := step (.beside h)

theorem from_beside (h : Path s c b') (hbeside : Beside b c) : Path s b b' :=
  (beside hbeside).trans h

theorem of_reaches (hreaches : Reaches s t) (h : Path t b c) : Path s b c := by
  refine Relation.ReflTransGen.mono ?_ _ _ h
  rintro x y ⟨u, hu, hstep⟩
  exact ⟨u, hreaches.trans hu, hstep⟩

theorem of_calls (hcalls : Calls s t) (h : Path t b c) : Path s b c :=
  of_reaches (.single hcalls) h

theorem nextTurn (h : b.nextTurn = .ok b') : Path s b b' := by
  rcases nextTurn_cases h with ⟨hmore, rfl⟩ | ⟨-, turn, queue, dice, hrun, hround⟩
  · exact step (.advance hmore)
  · rcases hround with ⟨-, rfl⟩ | ⟨-, hend⟩
    · exact step (.round hrun)
    · exact (step (.round hrun)).trans (beside (.checkEnd hend))

theorem endTurn (h : b.endTurn = .ok b') : Path s b b' := by
  rw [Battle.endTurn] at h
  exact from_beside (nextTurn h) (.of_eq rfl)

theorem executePending (h : b.executePending = .ok b') : Path (b, .executePending) b b' := by
  simp only [Battle.executePending] at h
  split at h
  next =>
    cases h
    exact .refl
  next o ho =>
    refine from_beside (c := b.enter .actionExecute) ?_ (.of_eq rfl)
    split at h
    next => exact from_beside (endTurn h) (.of_eq rfl)
    next f hf =>
      simp only [Fallible.bind_eq_ok] at h
      obtain ⟨c, hrun, d, hend, h⟩ := h
      have hend : Path (b, .executePending) c d :=
        from_beside (beside (.checkEnd hend)) (.of_eq rfl)
      refine (step (.order ho hf hrun)).trans (hend.trans ?_)
      split at h
      · exact endTurn h
      · cases h
        exact .refl

theorem dispatch {f : Fighter} (h : b.dispatch f = .ok b') : Path (b, .dispatch f) b b' := by
  simp only [Battle.dispatch] at h
  split at h
  next => exact endTurn h
  next halive =>
    split at h
    next =>
      cases h
      exact beside (.of_eq rfl)
    next hplayer =>
      simp only [Fallible.bind_eq_ok, Prod.exists] at h
      obtain ⟨o, c, horder, h⟩ := h
      have hcalls : Calls (b, .dispatch f) ({ c with pending := some o }, .executePending) :=
        .enemy (by simpa using halive) (by simpa using hplayer) horder
      refine from_beside (of_calls hcalls (executePending h)) ?_
      obtain ⟨dice, -, rfl⟩ := roll_eq_ok horder
      exact .of_eq rfl

mutual

theorem perform {b b' : Battle} :
    ∀ e : Event, Battle.perform b e = .ok b' → Path (b, .perform e) b b'
  | .dialog text speaker options, h => by
      rw [Battle.perform] at h
      exact beside (.queueDialog h)
  | .multi events, h => by
      rw [Battle.perform] at h
      exact of_calls .multi (performAll events h)
  | .other text, h => by
      rw [Battle.perform] at h
      cases h
  | .spawn _, h | .buff .., h | .heal .., h | .damage .., h | .flee _, h | .transform .., h =>
      step (.deed rfl h)

theorem performAll {b b' : Battle} :
    ∀ es : List Event, Battle.performAll b es = .ok b' → Path (b, .performAll es) b b'
  | [], h => by
      rw [Battle.performAll] at h
      cases h
      exact .refl
  | e :: es, h => by
      rw [Battle.performAll, Fallible.bind_eq_ok] at h
      obtain ⟨c, hc, h⟩ := h
      exact (of_calls .first (perform e hc)).trans (of_calls (.rest hc) (performAll es h))

end

theorem checkTriggers {d : Battle} {f : Fighter} (hcurrent : b.current? = some f)
    (halive : f.isAlive = true) (hbegin : beginTurn { b with phase := .turnStart } f = .ok c)
    (h : c.checkTriggers = .ok d) : Path (b, .startTurn) c d := by
  simp only [Battle.checkTriggers, arithmetic, Fallible.bind_eq_ok, Fallible.leaving_eq_ok,
    Fallible.mapError_eq_ok] at h
  obtain ⟨fired, hfired, hd⟩ := h
  exact from_beside (of_calls (.trigger hcurrent halive hbegin hfired) (performAll _ hd))
    (.of_eq rfl)

theorem startTurn (h : b.startTurn = .ok b') : Path (b, .startTurn) b b' := by
  refine from_beside (c := { b with phase := .turnStart }) ?_ (.of_eq rfl)
  rcases startTurn_cases h with
    ⟨-, hnext⟩ | ⟨f, c, d, e, hcurrent, halive, hbegin, htriggers, hend, hgoes⟩
  · exact nextTurn hnext
  · have hd : Path (b, .startTurn) c d := checkTriggers hcurrent halive hbegin htriggers
    refine (step (.begin hcurrent halive hbegin)).trans (hd.trans ?_)
    refine (beside (.checkEnd hend)).trans ?_
    rcases hgoes with ⟨-, rfl⟩ | ⟨hstays, hdispatch⟩
    · exact beside (.of_eq rfl)
    · obtain ⟨hover, hdialog⟩ : e.isOver = false ∧ e.phase ≠ .dialog := by simpa using hstays
      exact of_calls (.act hcurrent halive hbegin htriggers hend hover hdialog) (dispatch hdispatch)

theorem run (h : b.run = .ok b') : Path (b, .turns) b b' := by
  have hkept : ∀ c d, Path (b, .turns) b c ∧ Reaches (b, .turns) (c, .turns) →
      c.isRunning = true → c.startTurn = .ok d →
        Path (b, .turns) b d ∧ Reaches (b, .turns) (d, .turns) := by
    rintro c d ⟨hpath, hreaches⟩ hruns hturn
    exact ⟨hpath.trans (of_reaches (hreaches.tail (.turn hruns)) (startTurn hturn)),
      hreaches.tail (.turned hruns hturn)⟩
  exact (run_induction hkept h ⟨.refl, .refl⟩).1.1

theorem attemptFlee (h : b.attemptFlee = .ok b') : Path (b, .attemptFlee) b b' := by
  simp only [Battle.attemptFlee, arithmetic, Fallible.bind_eq_ok, Fallible.leaving_eq_ok,
    Fallible.mapError_eq_ok, Prod.exists] at h
  obtain ⟨chance, hchance, o, c, hroll, h⟩ := h
  split at h
  next =>
    cases h
    obtain ⟨dice, -, rfl⟩ := roll_eq_ok hroll
    exact beside (.of_eq rfl)
  next hfailed =>
    obtain ⟨d, hend, hrun⟩ := Fallible.bind_eq_ok.1 h
    have hcalls : Calls (b, .attemptFlee) (d, .turns) :=
      .caught hchance hroll (by simpa using hfailed) hend
    refine .trans ?_ (of_calls hcalls (run hrun))
    obtain ⟨dice, -, rfl⟩ := roll_eq_ok hroll
    exact from_beside (endTurn hend) (.of_eq rfl)

theorem resumePhase (h : b.resumePhase = .ok b') : Path (b, .resumePhase) b b' := by
  rcases resumePhase_cases h with ⟨-, rfl⟩ | ⟨hresume, c, hrun, hgoes⟩
  · exact beside (.of_eq rfl)
  · refine from_beside (c := b.resumed) ?_ (.of_eq rfl)
    rcases hgoes with ⟨hcurrent, hnext⟩ | ⟨f, hcurrent, hdispatch⟩
    · exact (nextTurn hnext).trans (of_calls (.resumedNext hresume hcurrent hnext) (run hrun))
    · exact (of_calls (.resumeTurn hresume hcurrent) (dispatch hdispatch)).trans
        (of_calls (.resumedTurn hresume hcurrent hdispatch) (run hrun))

theorem afterDialog (h : b.afterDialog = .ok b') : Path (b, .afterDialog) b b' := by
  rcases afterDialog_cases h with ⟨-, rfl⟩ | ⟨hdialogs, hover, hresume⟩
  · exact beside (.of_eq rfl)
  · exact of_calls (.resume hdialogs hover) (resumePhase hresume)

theorem start (h : b.start = .ok b') : Path (b, .command .start) b b' := by
  simp only [Battle.start, Fallible.bind_eq_ok, Prod.exists] at h
  obtain ⟨queue, c, hqueue, h⟩ := h
  have hcalls := Calls.start hqueue
  obtain ⟨dice, hrun, rfl⟩ := roll_eq_ok hqueue
  refine (step (@Step.round _ _ 1 _ _ hrun)).trans ?_
  exact from_beside (of_calls hcalls (run h)) (.of_eq rfl)

theorem selectAction {o : Order} (h : b.selectAction o = .ok b') :
    Path (b, .command (.selectAction o)) b b' := by
  rcases selectAction_cases h with rfl | ⟨hphase, hactor, hgoes⟩
  · exact .refl
  · refine from_beside (c := { b with pending := some o }) ?_ (.of_eq rfl)
    rcases hgoes with ⟨hkind, c, hdone, hrun⟩ | ⟨hkind, hflee⟩ | ⟨-, rfl⟩
    · exact (of_calls (.defend hphase hkind hactor) (executePending hdone)).trans
        (of_calls (.defended hphase hkind hactor hdone) (run hrun))
    · exact of_calls (.flee hphase hkind hactor) (attemptFlee hflee)
    · exact beside (.of_eq rfl)

theorem selectTargets {ids : List String} (h : b.selectTargets ids = .ok b') :
    Path (b, .command (.selectTargets ids)) b b' := by
  rcases selectTargets_cases h with rfl | ⟨o, c, hpending, hphase, hdone, hrun⟩
  · exact .refl
  · refine from_beside (c := { b with pending := some { o with targets := ids } }) ?_
      (.of_eq rfl)
    exact (of_calls (.target hpending hphase) (executePending hdone)).trans
      (of_calls (.targeted hpending hphase hdone) (run hrun))

theorem dismissDialog (h : b.dismissDialog = .ok b') : Path (b, .command .dismissDialog) b b' := by
  rcases dismissDialog_cases h with rfl | ⟨d, rest, hdialogs, hplain, hafter⟩
  · exact .refl
  · exact from_beside (of_calls (.dismiss hdialogs hplain) (afterDialog hafter))
      (.of_eq rfl)

theorem chooseOption {id : String} (h : b.chooseOption id = .ok b') :
    Path (b, .command (.chooseOption id)) b b' := by
  rcases chooseOption_cases h with rfl | ⟨d, rest, o, hdialogs, hoption, hgoes⟩
  · exact .refl
  · refine from_beside (c := { b with dialogs := rest }) ?_ (.of_eq rfl)
    rcases hgoes with ⟨hevent, hafter⟩ | ⟨e, x, y, hevent, hdone, hend, hafter⟩
    · exact of_calls (.choose hdialogs hoption hevent) (afterDialog hafter)
    · refine (of_calls (.answer hdialogs hoption hevent) (perform e hdone)).trans ?_
      exact (beside (.checkEnd hend)).trans
        (of_calls (.answered hdialogs hoption hevent hdone hend) (afterDialog hafter))

theorem settleAll {a : Battle} {ids : List String} (h : b.settleAll ids = .ok b') :
    Path (a, .command .close) b b' := by
  induction ids generalizing b with
  | nil =>
      cases h
      exact .refl
  | cons id ids ih =>
      simp only [Battle.settleAll] at h
      split at h
      next => exact ih h
      next f hf =>
        obtain ⟨g, hg, h⟩ := Fallible.bind_eq_ok.1 h
        exact (step (.settle hf (Fallible.leaving_eq_ok.1 hg))).trans (ih h)

theorem close (h : b.close = .ok b') : Path (b, .command .close) b b' := by
  simp only [Battle.close, Fallible.bind_eq_ok] at h
  obtain ⟨c, hsettle, h⟩ := h
  cases h
  exact (settleAll hsettle).trans (beside (.of_eq rfl))

/-- A command takes its steps and no others. -/
theorem apply {k : Command} (h : k.apply b = .ok b') : Path (b, .command k) b b' := by
  cases k with
  | start => exact start h
  | selectAction o => exact selectAction h
  | selectTargets ids => exact selectTargets h
  | cancelTargets =>
      cases h
      rcases cancelTargets_cases b with hnothing | ⟨-, hcancel⟩
      · rw [hnothing]
      · rw [hcancel]
        exact beside (.of_eq rfl)
  | queueDialog d => exact beside (.queueDialog h)
  | dismissDialog => exact dismissDialog h
  | chooseOption id => exact chooseOption h
  | perform e => exact of_calls .perform (perform e h)
  | close => exact close h

end Path

theorem Calls.path (h : Calls s t) : Path s s.1 t.1 := by
  cases h with
  | start hqueue =>
      obtain ⟨dice, hrun, rfl⟩ := roll_eq_ok hqueue
      exact (Path.step (@Step.round _ _ 1 _ _ hrun)).trans
        (Path.beside (.of_eq rfl))
  | @defended b c o hphase hkind hactor hdone =>
      exact Path.from_beside
        (.of_calls (.defend hphase hkind hactor) (.executePending hdone))
        (.of_eq rfl)
  | caught _ hroll _ hend =>
      obtain ⟨dice, -, rfl⟩ := roll_eq_ok hroll
      exact Path.from_beside (.endTurn hend) (.of_eq rfl)
  | targeted hpending hphase hdone =>
      exact Path.from_beside (.of_calls (.target hpending hphase) (.executePending hdone))
        (.of_eq rfl)
  | answered hdialogs hoption hevent hdone hend =>
      have hsteps := (Path.of_calls (.answer hdialogs hoption hevent) (.perform _ hdone)).trans
        (Path.beside (.checkEnd hend))
      exact Path.from_beside hsteps (.of_eq rfl)
  | resumedTurn hresume hcurrent hdone =>
      exact Path.from_beside (.of_calls (.resumeTurn hresume hcurrent) (.dispatch hdone))
        (.of_eq rfl)
  | resumedNext hresume hcurrent hnext =>
      exact Path.from_beside (.nextTurn hnext) (.of_eq rfl)
  | turned hruns hdone => exact Path.of_calls (.turn hruns) (.startTurn hdone)
  | @trigger b c _ _ hcurrent halive hbegin _ =>
      have hbegun : Path (b, .startTurn) b c :=
        Path.from_beside (Path.step (.begin hcurrent halive hbegin))
          (.of_eq rfl)
      refine hbegun.trans (Path.beside ?_)
      exact .of_eq rfl
  | act hcurrent halive hbegin htriggers hend _ _ =>
      have hfired := Path.checkTriggers hcurrent halive hbegin htriggers
      have hsteps := (Path.step (.begin hcurrent halive hbegin)).trans
        (hfired.trans (Path.beside (.checkEnd hend)))
      exact Path.from_beside hsteps (.of_eq rfl)
  | enemy _ _ horder =>
      obtain ⟨dice, -, rfl⟩ := roll_eq_ok horder
      exact Path.beside (.of_eq rfl)
  | rest hdone => exact Path.of_calls .first (.perform _ hdone)
  | _ => exact Path.beside (.of_eq rfl)

theorem Reaches.path (h : Reaches s t) : Path s s.1 t.1 := by
  induction h with
  | refl => exact .refl
  | tail hbefore hcall ih => exact ih.trans (Path.of_reaches hbefore hcall.path)

end Battle

end Skirmish

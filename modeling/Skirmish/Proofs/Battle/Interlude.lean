import Skirmish.Proofs.Battle.Echo
import Skirmish.Proofs.Battle.Onward
import Skirmish.Proofs.Battle.StatCoherence

namespace Skirmish.Battle

open Fallible (Carries)

variable {r : Stat.Rules} {c : Config} {b b' d : Battle} {again : Result Battle}

/-- Dialogs can be dismissed, and only the start of a turn is interrupted by one. -/
structure Calm (r : Stat.Rules) (c : Config) (b : Battle) : Prop where
  upToDate : AllUpToDate r c b
  dialogs : ∀ d ∈ b.dialogs, d.options = []
  triggers : ∀ t ∈ b.triggers.triggers, t.event.Plain
  phase : (b.phase ≠ .dialog ∧ b.resume = []) ∨
    (b.phase = .dialog ∧ b.resume = [.turnStart] ∧ b.dialogs ≠ [])

namespace Calm

theorem resume_nil (h : Calm r c b) (hphase : b.phase ≠ .dialog) : b.resume = [] := by
  rcases h.phase with ⟨-, hresume⟩ | ⟨hdialog, -⟩
  · exact hresume
  · exact absurd hdialog hphase

theorem of_sameAside (h : Calm r c b) (hup : AllUpToDate r c b') (hsame : SameAside b b') :
    Calm r c b' where
  upToDate := hup
  dialogs := hsame.dialogs ▸ h.dialogs
  triggers := hsame.triggers ▸ h.triggers
  phase := by
    rw [hsame.phase, hsame.resume, hsame.dialogs]
    exact h.phase

theorem of_echo (h : Calm r c b) (hphase : b.phase ≠ .dialog) (hup : AllUpToDate r c b')
    (hecho : Echo b b' again) : Calm r c b' where
  upToDate := hup
  dialogs := hecho.dialogs ▸ h.dialogs
  triggers := hecho.triggers ▸ h.triggers
  phase := .inl ⟨hphase ∘ hecho.phase, hecho.resume (h.resume_nil hphase)⟩

end Calm

/-- An event of a turn that has begun: the hushed battle does the same, and the turn stays begun. -/
structure Spoken (r : Stat.Rules) (c : Config) (b' : Battle) (again : Result Battle) : Prop where
  calm : Calm r c b'
  phase : b'.hush.phase = .turnStart
  hushed : again = .ok b'.hush

theorem Spoken.of_apart {op : Battle → Result Battle} (hop : Apart op) (hb : Calm r c b)
    (hphase : b.hush.phase = .turnStart) (h : op b = .ok b') (hup : AllUpToDate r c b') :
    Spoken r c b' (op b.hush) := by
  have hsame := hop.sameAside h
  refine ⟨hb.of_sameAside hup hsame, ?_, hop.hush h⟩
  rw [← hphase, hush, hush, hsame.phase, hsame.resume]

theorem queueDialog_spoken {d : Dialog} (hdepth : 1 ≤ c.maxPhaseDepth) (hb : Calm r c b)
    (hphase : b.hush.phase = .turnStart) (hd : d.options = []) (h : b.queueDialog d = .ok b') :
    Spoken r c b' (.ok b.hush) := by
  have hdialogs : ∀ e ∈ b.dialogs ++ [d], e.options = [] := by
    intro e he
    rcases List.mem_append.1 he with he | he
    · exact hb.dialogs e he
    · rw [List.mem_singleton.1 he, hd]
  have hup : ∀ d, SameField b d → AllUpToDate r c d := fun d => hb.upToDate.of_same
  rcases hb.phase with ⟨hne, hresume⟩ | ⟨heq, hresume, -⟩
  · have hturn : b.phase = .turnStart := hush_phase hne ▸ hphase
    have hroom : ¬ b.config.maxPhaseDepth ≤ b.resume.length := by
      rw [hb.upToDate.config, hresume]
      exact Int.not_le.2 hdepth
    have hover : isOver { b with dialogs := b.dialogs ++ [d] } = false := by
      simp [isOver, hturn, Phase.isTerminal]
    simp only [queueDialog, if_neg hne, hover, if_neg hroom] at h
    cases h
    refine ⟨⟨hup _ ⟨rfl, rfl, rfl, rfl⟩, hdialogs, hb.triggers, .inr ⟨rfl, ?_, ?_⟩⟩, ?_, ?_⟩
    · simp [enter, notify, hresume, hturn]
    · simp [enter, notify]
    · simp [hush, enter, notify, hturn]
    · simp [hush, enter, notify, hturn]
  · simp only [queueDialog, if_pos heq] at h
    cases h
    exact ⟨⟨hup _ ⟨rfl, rfl, rfl, rfl⟩, hdialogs, hb.triggers, .inr ⟨heq, hresume, by simp⟩⟩,
      hphase, rfl⟩

theorem perform_spoken_of_apart {e : Event}
    (hdialog : ∀ text speaker options, e ≠ .dialog text speaker options)
    (hmulti : ∀ events, e ≠ .multi events) (hb : Calm r c b) (hphase : b.hush.phase = .turnStart)
    (h : perform b e = .ok b') : Spoken r c b' (perform b.hush e.hushed) := by
  rw [Event.hushed_eq_self hdialog hmulti]
  exact .of_apart (perform_apart hdialog hmulti) hb hphase h
    (Coherent.lasting.perform h hb.upToDate)

mutual

theorem perform_spoken (hdepth : 1 ≤ c.maxPhaseDepth) {b b' : Battle} (hb : Calm r c b)
    (hphase : b.hush.phase = .turnStart) :
    ∀ e : Event, e.Plain → perform b e = .ok b' → Spoken r c b' (perform b.hush e.hushed)
  | .dialog text speaker options, hplain, h => by
      rw [perform] at h
      rw [Event.hushed, perform]
      rw [Event.Plain] at hplain
      exact queueDialog_spoken hdepth hb hphase hplain h
  | .spawn enemyId, _, h =>
      perform_spoken_of_apart (e := .spawn enemyId) (by simp) (by simp) hb hphase h
  | .buff stat value target duration, _, h =>
      perform_spoken_of_apart (e := .buff stat value target duration) (by simp) (by simp) hb hphase
        h
  | .heal amount target, _, h =>
      perform_spoken_of_apart (e := .heal amount target) (by simp) (by simp) hb hphase h
  | .damage amount target, _, h =>
      perform_spoken_of_apart (e := .damage amount target) (by simp) (by simp) hb hphase h
  | .flee target, _, h =>
      perform_spoken_of_apart (e := .flee target) (by simp) (by simp) hb hphase h
  | .transform enemyId target, _, h =>
      perform_spoken_of_apart (e := .transform enemyId target) (by simp) (by simp) hb hphase h
  | .multi events, hplain, h => by
      rw [perform] at h
      rw [Event.hushed, perform]
      exact performAll_spoken hdepth hb hphase events hplain h
  | .other text, _, h => by
      rw [perform] at h
      cases h

theorem performAll_spoken (hdepth : 1 ≤ c.maxPhaseDepth) {b b' : Battle} (hb : Calm r c b)
    (hphase : b.hush.phase = .turnStart) :
    ∀ es : List Event, Event.PlainAll es → performAll b es = .ok b' →
      Spoken r c b' (performAll b.hush (Event.hushedAll es))
  | [], _, h => by
      rw [performAll] at h
      cases h
      exact ⟨hb, hphase, rfl⟩
  | e :: es, hplain, h => by
      rw [performAll] at h
      obtain ⟨d, hd, h⟩ := Fallible.bind_eq_ok.1 h
      have hspoken := perform_spoken hdepth hb hphase e hplain.1 hd
      have hrest := performAll_spoken hdepth hspoken.calm hspoken.phase es hplain.2 h
      refine ⟨hrest.calm, hrest.phase, ?_⟩
      rw [Event.hushedAll, performAll, hspoken.hushed, Fallible.ok_bind, hrest.hushed]

end

theorem checkTriggers_spoken (hdepth : 1 ≤ c.maxPhaseDepth) (hb : Calm r c b)
    (hphase : b.hush.phase = .turnStart) (h : b.checkTriggers = .ok b') :
    Spoken r c b' b.hush.checkTriggers := by
  have hevaluate := b.triggers.evaluate_hushed b.fighters.values (.whole b.turn)
  have htriggers := b.triggers.triggers_evaluate b.fighters.values (.whole b.turn)
  simp only [checkTriggers, arithmetic, Fallible.bind_eq_ok, Fallible.leaving_eq_ok,
    Fallible.mapError_eq_ok] at h
  obtain ⟨fired, hfired, h⟩ := h
  have hcalm : Calm r c
      { b with triggers := (b.triggers.evaluate b.fighters.values (.whole b.turn)).2 } :=
    ⟨hb.upToDate.of_same ⟨rfl, rfl, rfl, rfl⟩, hb.dialogs, htriggers ▸ hb.triggers, hb.phase⟩
  have hplain : Event.PlainAll (fired.map Trigger.event) := by
    refine Event.plainAll_iff.2 fun e he => ?_
    obtain ⟨t, ht, rfl⟩ := List.mem_map.1 he
    exact hb.triggers t (Trigger.Book.subset_of_evaluate hfired ht)
  have hspoken := performAll_spoken hdepth hcalm hphase _ hplain h
  refine ⟨hspoken.calm, hspoken.phase, ?_⟩
  have hagain : b.hush.checkTriggers =
      performAll (hush { b with
        triggers := (b.triggers.evaluate b.fighters.values (.whole b.turn)).2 })
        (Event.hushedAll (fired.map Trigger.event)) := by
    have hbook : b.hush.triggers = b.triggers.hushed := rfl
    have hvalues : b.hush.fighters.values = b.fighters.values := rfl
    have hturn : b.hush.turn = b.turn := rfl
    simp only [checkTriggers, hbook, hvalues, hturn, hevaluate, hfired, arithmetic,
      Fallible.map_ok, Fallible.mapError_ok, Fallible.leaving_ok, Fallible.ok_bind]
    rw [Event.hushedAll_eq_map, List.map_map, List.map_map]
    rfl
  rw [hagain, hspoken.hushed]

/-- What the hushed battle has come to: where a dialog waits, its turn goes on. -/
def beyond (b : Battle) : Result Battle :=
  if b.phase = .dialog then b.hush.resumeTurn else .ok b.hush

theorem beyond_of_ne (h : b.phase ≠ .dialog) : b.beyond = .ok b.hush := if_neg h

theorem Calm.beyond_of_echo (hb : Calm r c b) (hphase : b.phase ≠ .dialog)
    (hup : AllUpToDate r c b') (hecho : Echo b b' again) : Calm r c b' ∧ again = b'.beyond :=
  ⟨hb.of_echo hphase hup hecho, by rw [beyond_of_ne (hphase ∘ hecho.phase), hecho.hushed]⟩

theorem dispatch_beyond {d : Battle} {f g : Fighter} (hd : Calm r c d)
    (hphase : d.hush.phase = .turnStart) (hup : AllUpToDate r c b)
    (hend : d.checkEnd = .ok b) (hfound : b.fighter? f.id = some g)
    (hcurrent : b.current? = some g)
    (h : (if b.isOver || b.phase = .dialog then .ok b.notify
      else b.dispatch ((b.fighter? f.id).getD f)) = .ok b') :
    Calm r c b' ∧ (d.hush.checkEnd >>= fun b =>
      if b.isOver || b.phase = .dialog then .ok b.notify
      else b.dispatch ((b.fighter? f.id).getD f)) = b'.beyond := by
  obtain ⟨hecho, hcases⟩ := checkEnd_echo hend
  rw [hecho.hushed, Fallible.ok_bind]
  have hfighter : b.hush.fighter? f.id = b.fighter? f.id := rfl
  rw [hfighter, hfound, Option.getD_some]
  rw [hfound, Option.getD_some] at h
  rcases hcases with rfl | ⟨hover, hresume⟩
  · have hgoes : (b.hush.isOver || b.hush.phase = .dialog) = false := by
      simp [isOver, hphase, Phase.isTerminal]
    rw [hgoes, if_neg Bool.false_ne_true]
    rcases hd.phase with ⟨hne, -⟩ | ⟨heq, -⟩
    · have hsame : (b.isOver || b.phase = .dialog) = false := by
        rw [isOver, ← hush_phase hne]
        exact hgoes
      rw [hsame, if_neg Bool.false_ne_true] at h
      exact hd.beyond_of_echo hne (Coherent.lasting.dispatch h hup) (dispatch_echo h)
    · have hwaits : (b.isOver || b.phase = .dialog) = true := by simp [heq]
      rw [hwaits, if_pos rfl] at h
      cases h
      have hcurrent' : b.hush.current? = some g := hcurrent
      refine ⟨hd.of_sameAside (hup.of_same ⟨rfl, rfl, rfl, rfl⟩) ⟨rfl, rfl, rfl, rfl, rfl⟩, ?_⟩
      have hbeyond : b.notify.beyond = b.hush.resumeTurn := if_pos heq
      rw [hbeyond, resumeTurn, hcurrent']
  · have hne : b.phase ≠ .dialog := by
      intro heq
      simp [isOver, heq, Phase.isTerminal] at hover
    rw [hover, Bool.true_or, if_pos rfl] at h
    cases h
    have hover' : b.hush.isOver = true := by rwa [isOver, hush_phase hne]
    refine ⟨⟨hup.of_same ⟨rfl, rfl, rfl, rfl⟩, hecho.dialogs ▸ hd.dialogs,
      hecho.triggers ▸ hd.triggers, .inl ⟨hne, hresume⟩⟩, ?_⟩
    have hbeyond : b.notify.beyond = .ok b.hush := if_neg hne
    rw [hbeyond, hover', Bool.true_or, if_pos rfl]
    rfl

theorem startTurn_beyond (hdepth : 1 ≤ c.maxPhaseDepth) (hb : Calm r c b)
    (hphase : b.phase ≠ .dialog) (h : b.startTurn = .ok b') :
    Calm r c b' ∧ b.hush.startTurn = b'.beyond := by
  have hstart : Calm r c { b with phase := .turnStart } :=
    ⟨hb.upToDate.of_same ⟨rfl, rfl, rfl, rfl⟩, hb.dialogs, hb.triggers,
      .inl ⟨by simp, hb.resume_nil hphase⟩⟩
  have hagain : ({ b.hush with phase := .turnStart } : Battle) =
      hush { b with phase := .turnStart } := rfl
  have hcurrent : (hush { b with phase := .turnStart }).current? =
      current? { b with phase := .turnStart } := rfl
  simp only [startTurn] at h ⊢
  rw [hagain, hcurrent]
  split at h
  next =>
    have hup := Coherent.lasting.nextTurn h hstart.upToDate
    exact hstart.beyond_of_echo (by simp) hup (nextTurn_echo h)
  next f hf =>
    have hf := (Option.filter_eq_some_iff.1 hf).1
    obtain ⟨d, hbegin, h⟩ := Fallible.bind_eq_ok.1 h
    obtain ⟨e, htriggers, h⟩ := Fallible.bind_eq_ok.1 h
    obtain ⟨e', hend, h⟩ := Fallible.bind_eq_ok.1 h
    obtain ⟨id, hid⟩ := current?_eq_some hf
    have hupd := Coherent.lasting.beginTurn hid hbegin hstart.upToDate
    have hspoken : Spoken r c d _ := .of_apart (beginTurn_apart f) hstart rfl hbegin hupd
    have hspoken' := checkTriggers_spoken hdepth hspoken.calm hspoken.phase htriggers
    have hupe := Coherent.lasting.checkEnd hend hspoken'.calm.upToDate
    rw [hspoken.hushed, Fallible.ok_bind, hspoken'.hushed, Fallible.ok_bind]
    have honward := ((Onward.beginTurn hbegin).trans (Onward.checkTriggers htriggers)).trans
      (Onward.checkEnd hend)
    obtain ⟨g, hfound, hcurrent'⟩ := honward.current? hstart.upToDate.fighters hf
    exact dispatch_beyond hspoken'.calm hspoken'.phase hupe hend hfound hcurrent' h

theorem phase_ne_of_isRunning (h : b.isRunning = true) : b.phase ≠ .dialog := by
  intro heq
  simp [isRunning, heq, Phase.isTerminal, Phase.isWaiting] at h

theorem isRunning_hush (h : b.phase ≠ .dialog) : b.hush.isRunning = b.isRunning := by
  rw [isRunning, hush_phase h, isRunning]

def ahead (b : Battle) : Result Battle :=
  if b.phase = .dialog then b.hush.resumeTurn >>= run else .ok b.hush

theorem ahead_of_ne (h : b.phase ≠ .dialog) : b.ahead = .ok b.hush := if_neg h

theorem run_ahead (hdepth : 1 ≤ c.maxPhaseDepth) (hb : Calm r c b) (hphase : b.phase ≠ .dialog)
    (h : b.run = .ok b') : Calm r c b' ∧ Carries id b'.ahead b.hush.run := by
  have hstep : ∀ d d', (Calm r c d ∧ Carries id (d.beyond >>= run) b.hush.run) →
      d.isRunning = true → d.startTurn = .ok d' →
        Calm r c d' ∧ Carries id (d'.beyond >>= run) b.hush.run := by
    rintro d d' ⟨hd, hrun⟩ hrunning hturn
    have hne := phase_ne_of_isRunning hrunning
    obtain ⟨hd', hagain⟩ := startTurn_beyond hdepth hd hne hturn
    have hrunning : d.hush.isRunning = true := by rwa [isRunning_hush hne]
    have hgoes : Carries id (d'.beyond >>= run) d.hush.run := by
      intro x hx
      rw [← hagain] at hx
      exact (run_eq_ok_of_running hrunning).2 (Fallible.bind_eq_ok.1 hx)
    rw [beyond_of_ne hne, Fallible.ok_bind] at hrun
    exact ⟨hd', hgoes.trans hrun⟩
  obtain ⟨⟨hb', hrun⟩, hwaits⟩ := run_induction hstep h
    ⟨hb, by rw [beyond_of_ne hphase, Fallible.ok_bind]; exact .refl _⟩
  refine ⟨hb', ?_⟩
  by_cases hdialog : b'.phase = .dialog
  · rw [beyond, if_pos hdialog] at hrun
    rwa [ahead, if_pos hdialog]
  · rw [beyond_of_ne hdialog, Fallible.ok_bind,
      run_of_waiting (isRunning_hush hdialog ▸ hwaits)] at hrun
    rwa [ahead_of_ne hdialog]

theorem Echo.run_ahead (hdepth : 1 ≤ c.maxPhaseDepth) (hb : Calm r c b) (hphase : b.phase ≠ .dialog)
    (hecho : Echo b d again) (hup : AllUpToDate r c d) (h : d.run = .ok b') :
    Calm r c b' ∧ Carries id b'.ahead (again >>= run) := by
  rw [hecho.hushed, Fallible.ok_bind]
  exact Battle.run_ahead hdepth (hb.of_echo hphase hup hecho) (hphase ∘ hecho.phase) h

theorem Echo.ahead (hb : Calm r c b) (hphase : b.phase ≠ .dialog) (hecho : Echo b b' again)
    (hup : AllUpToDate r c b') : Calm r c b' ∧ Carries id b'.ahead again := by
  refine ⟨hb.of_echo hphase hup hecho, ?_⟩
  rw [ahead_of_ne (hphase ∘ hecho.phase), hecho.hushed]
  exact .refl _

end Skirmish.Battle

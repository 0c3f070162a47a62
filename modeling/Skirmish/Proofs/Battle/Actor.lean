import Skirmish.Proofs.Battle.Waiting

namespace Skirmish.Battle

variable {ts : List Trigger} {p : String} {b b' : Battle} {f : Fighter} {k : Command}

/-- The fighter for whom a command has an action carried out, if it is accepted. -/
def Command.actor? (b : Battle) : Command → Option String
  | selectAction o =>
    if b.phase = .actionSelect ∧ (o.kind = .defend ∨ o.kind = .flee) ∧
        b.current?.map Fighter.id = some o.actorId then
      some o.actorId
    else none
  | selectTargets _ => if b.phase = .targetSelect then b.pending.map Order.actorId else none
  | _ => none

def Lives (b : Battle) (id : String) : Prop := ∀ f, b.fighter? id = some f → f.isAlive = true

/-- Whoever the pending order is for lives. -/
def ActorLives (b : Battle) : Prop := ∀ o, b.pending = some o → Lives b o.actorId

def Able : Call → Prop
  | (b, .command k) => ∀ id, k.actor? b = some id → Lives b id
  | (b, .attemptFlee) => ActorLives b
  | (b, .dispatch f) => b.current? = some f
  | (b, .executePending) => ActorLives b
  | _ => True

theorem actor?_selectAction {o : Order} (hphase : b.phase = .actionSelect)
    (hkind : o.kind = .defend ∨ o.kind = .flee)
    (hactor : b.current?.map Fighter.id = some o.actorId) :
    Command.actor? b (.selectAction o) = some o.actorId :=
  if_pos ⟨hphase, hkind, hactor⟩

theorem actor?_selectTargets {o : Order} {ids : List String} (hpending : b.pending = some o)
    (hphase : b.phase = .targetSelect) :
    Command.actor? b (.selectTargets ids) = some o.actorId := by
  rw [Command.actor?, if_pos hphase, hpending]
  rfl

theorem actorLives_of_lives {o : Order} (h : Lives b o.actorId) :
    ActorLives { b with pending := some o } := by
  rintro o' ⟨⟩
  exact h

theorem lives_of_current? (hled : Led p b) (hcurrent : b.current? = some f)
    (halive : f.isAlive = true) : Lives b f.id := by
  obtain ⟨e, -, hfound⟩ := Option.bind_eq_some_iff.1 hcurrent
  rw [(hled e.id f hfound).1]
  intro g hg
  obtain rfl : f = g := Option.some.inj (hfound.symm.trans hg)
  exact halive

/-- Nobody falls between the check whether an enemy lives and its action. -/
theorem Able.calls {s t : Call} (hcall : Calls s t) (hdue : Due ts s) (hled : Led p s.1)
    (h : Able s) : Able t := by
  cases hcall with
  | defend hphase hkind hactor =>
      exact actorLives_of_lives (h _ (actor?_selectAction hphase (.inl hkind) hactor))
  | flee hphase hkind hactor =>
      exact actorLives_of_lives (h _ (actor?_selectAction hphase (.inr hkind) hactor))
  | @target b o ids hpending hphase =>
      have hlives : Lives b o.actorId := h _ (actor?_selectTargets hpending hphase)
      exact actorLives_of_lives (o := { o with targets := ids }) hlives
  | resumeTurn _ hcurrent => exact hcurrent
  | act hcurrent halive hbegin htriggers hend hover _ =>
      have hbegun : Begun _ _ _ := ⟨hcurrent, halive, _, hbegin, htriggers⟩
      rcases hdue.undecided hbegun hend with ⟨rfl, -, -⟩ | he
      · exact hbegun.current? hled
      · exact absurd he.isOver (by simp [hover])
  | @enemy b c f o halive _ horder =>
      obtain ⟨dice, hrun, rfl⟩ := roll_eq_ok horder
      obtain ⟨-, hactor⟩ := Tactics.choose_own _ _ _ hrun
      refine actorLives_of_lives ?_
      rw [hactor]
      exact lives_of_current? hled h halive
  | _ => trivial

theorem Able.reaches {s t : Call} (hreaches : Reaches s t) (hdue : Due ts s) (hled : Led p s.1)
    (h : Able s) : Able t := by
  induction hreaches with
  | refl => exact h
  | tail hbefore hcall ih =>
      exact ih.calls hcall (hdue.reaches hbefore) (Led.lasting.reaches hbefore hled)

theorem exists_reaches_of_actor? {id : String} (h : k.actor? b = some id) :
    ∃ x o, (Reaches (b, .command k) (x, .executePending) ∨
        Reaches (b, .command k) (x, .attemptFlee)) ∧
      x.pending = some o ∧ o.actorId = id ∧ x.fighters = b.fighters := by
  cases k with
  | selectAction o =>
      rw [Command.actor?] at h
      split at h
      next hgives =>
        cases h
        obtain ⟨hphase, hkind, hactor⟩ := hgives
        refine ⟨{ b with pending := some o }, o, ?_, rfl, rfl, rfl⟩
        rcases hkind with hkind | hkind
        · exact .inl (.single (.defend hphase hkind hactor))
        · exact .inr (.single (.flee hphase hkind hactor))
      next => cases h
  | selectTargets ids =>
      rw [Command.actor?] at h
      split at h
      next hphase =>
        obtain ⟨o, hpending, rfl⟩ := Option.map_eq_some_iff.1 h
        exact ⟨_, { o with targets := ids }, .inl (.single (.target hpending hphase)), rfl, rfl,
          rfl⟩
      next => cases h
  | _ => cases h

theorem Live.lives {id : String} (h : Live p b) (hled : Led p b) (hid : k.actor? b = some id) :
    Lives b id := by
  cases k with
  | selectAction o =>
      rw [Command.actor?] at hid
      split at hid
      next hgives =>
        cases hid
        obtain ⟨hphase, -, hactor⟩ := hgives
        have hstage : b.stage = .actionSelect := by rw [stage_of_ne (by simp [hphase]), hphase]
        obtain ⟨f, hcurrent, -, halive, -⟩ := h.exists_current? hled (.inl hstage)
        have hsame : f.id = o.actorId := by simpa [hcurrent] using hactor
        rw [← hsame]
        exact lives_of_current? hled hcurrent halive
      next => cases hid
  | selectTargets ids =>
      rw [Command.actor?] at hid
      split at hid
      next hphase =>
        have hstage : b.stage = .targetSelect := by rw [stage_of_ne (by simp [hphase]), hphase]
        obtain ⟨o, hpending, -, hactor⟩ := h.order hstage
        obtain ⟨f, hcurrent, hfound, halive, -⟩ := h.exists_current? hled (.inr hstage)
        obtain rfl : p = id := by simpa [hpending, hactor] using hid
        rw [← (hled p f hfound).1]
        exact lives_of_current? hled hcurrent halive
      next => cases hid
  | _ => cases hid

theorem Live.of_course {b₀ b₁ : Battle} {player : Option Character} {enemies : Option (List Enemy)}
    (h₀ : b₀.assemble player enemies = .ok b₁) (h : Course Command.IsPlay b₁ b) :
    Live (player.getD b₀.game.player).id b := by
  refine Live.course (live_of_not_isWaiting ?_) (Paused.assemble h₀) (Led.assemble h₀) h
  rw [phase_of_assemble h₀]
  rfl

/-- On the way of a command every action is carried out for a fighter that lives, unless the command
is an order, or the choice of its targets, for a player who has fallen since it was asked for. As
long as the battle is only played nobody falls then. -/
theorem acts_iff_lives {b₀ b₁ : Battle} {player : Option Character}
    {enemies : Option (List Enemy)} (h₀ : b₀.assemble player enemies = .ok b₁)
    (h : Course (fun _ => True) b₁ b) (hk : k.Fits b) :
    ((∀ x, Reaches (b, .command k) (x, .executePending) ∨
          Reaches (b, .command k) (x, .attemptFlee) →
        ∀ o f, x.pending = some o → x.fighter? o.actorId = some f → f.isAlive = true) ↔
      ∀ id f, k.actor? b = some id → b.fighter? id = some f → f.isAlive = true) ∧
    (Course Command.IsPlay b₁ b →
      ∀ id f, k.actor? b = some id → b.fighter? id = some f → f.isAlive = true) := by
  have hdue : Due (b₁.triggers.triggers) (b, .command k) := ⟨hk, (Paused.assemble h₀).course h⟩
  have hled := Led.lasting.course h (Led.assemble h₀)
  refine ⟨⟨fun hacts id f hid hf => ?_, fun hlives x hreaches o f ho hf => ?_⟩, ?_⟩
  · obtain ⟨x, o, hreaches, ho, rfl, hfighters⟩ := exists_reaches_of_actor? hid
    refine hacts x hreaches o f ho ?_
    rwa [Battle.fighter?, hfighters]
  · have hable : Able (b, .command k) := fun id hid f hf => hlives id f hid hf
    rcases hreaches with hreaches | hreaches
    · exact Able.reaches hreaches hdue hled hable o ho f hf
    · exact Able.reaches hreaches hdue hled hable o ho f hf
  · intro hplay id f hid hf
    exact (Live.of_course h₀ hplay).lives hled hid f hf

def guard : Order := { kind := .defend, actorId := "hero" }

theorem guard_runs (amount : Quantity) (isAlive : Bool)
    (hok : (do
      let b₁ ← (plain none).assemble none (some [.plain "slime"])
      let c ← b₁.startWithin 2
      let b ← c.perform (.damage amount (some "hero"))
      return (b₁.phase, b.phase, b.current?.map fun f : Fighter => (f.id, f.isAlive))).toOption =
        some (.start, .actionSelect, some ("hero", isAlive))) :
    ∃ b₁ b f, (plain none).assemble none (some [.plain "slime"]) = .ok b₁ ∧
      Course (fun _ => True) b₁ b ∧ b.fighter? "hero" = some f ∧ f.isAlive = isAlive ∧
      Reaches (b, .command (.selectAction guard))
        ({ b with pending := some guard }, .executePending) := by
  obtain ⟨found, h, hfound⟩ := Fallible.exists_eq_ok_and (f := id) (by simpa using hok)
  simp only [Fallible.bind_eq_ok, Except.ok.injEq] at h
  obtain ⟨b₁, h₁, c, hstart, b, hdamage, rfl⟩ := h
  obtain ⟨hfirst, hphase, f, hcurrent, hid, halive⟩ : b₁.phase = .start ∧
      b.phase = .actionSelect ∧ ∃ f, b.current? = some f ∧ f.id = "hero" ∧ f.isAlive = isAlive := by
    simpa using hfound
  have hcourse : Course (fun _ => True) b₁ b := by
    refine .tail (.single ⟨.start, trivial, fun _ => hfirst, start_of_startWithin hstart⟩) ?_
    exact ⟨.perform (.damage amount (some "hero")), trivial, by rintro ⟨⟩, hdamage⟩
  have hled := Led.lasting.course hcourse (Led.assemble h₁)
  obtain ⟨e, -, hhero⟩ := Option.bind_eq_some_iff.1 hcurrent
  refine ⟨b₁, b, f, h₁, hcourse, ?_, halive, .single (.defend hphase rfl ?_)⟩
  · rw [← hid, (hled e.id f hhero).1]
    exact hhero
  · rw [hcurrent]
    exact congrArg some hid

theorem acts_iff_lives_guard :
    ∃ b₁ b x f, (plain none).assemble none (some [.plain "slime"]) = .ok b₁ ∧
      Course (fun _ => True) b₁ b ∧
      Reaches (b, .command (.selectAction guard)) (x, .executePending) ∧
      x.pending = some guard ∧ x.fighter? "hero" = some f ∧ f.isAlive = true := by
  obtain ⟨b₁, b, f, h₁, hcourse, hf, halive, hreaches⟩ := guard_runs 10 true (by decide +kernel)
  refine ⟨b₁, b, _, f, h₁, hcourse, hreaches, rfl, hf, ?_⟩
  have hlives := (acts_iff_lives h₁ hcourse (k := .selectAction guard) (by rintro ⟨⟩)).1
  refine hlives.2 (fun id g hid hg => ?_) _ (.inl hreaches) guard f rfl hf
  obtain ⟨rfl, rfl⟩ : id = "hero" ∧ f = g := by
    rw [Command.actor?] at hid
    split at hid
    · cases hid
      exact ⟨rfl, Option.some.inj (hf.symm.trans hg)⟩
    · cases hid
  exact halive

/-- A hero felled while an order is waited for still defends. -/
theorem not_lives_guard :
    ∃ b₁ b x f, (plain none).assemble none (some [.plain "slime"]) = .ok b₁ ∧
      Course (fun _ => True) b₁ b ∧
      Reaches (b, .command (.selectAction guard)) (x, .executePending) ∧
      x.pending = some guard ∧ x.fighter? "hero" = some f ∧ f.isAlive = false := by
  obtain ⟨b₁, b, f, h₁, hcourse, hf, halive, hreaches⟩ := guard_runs 60 false (by decide +kernel)
  exact ⟨b₁, b, _, f, h₁, hcourse, hreaches, rfl, hf, halive⟩

end Skirmish.Battle

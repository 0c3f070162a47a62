import Skirmish.Proofs.Battle.Aftermath

namespace Skirmish.Battle

variable {r : Stat.Rules} {cfg : Config} {b b₁ c : Battle} {f : Fighter} {id : String}

/-- The fighter with the id is up to date, if there is one. -/
def FreshAt (r : Stat.Rules) (cfg : Config) (id : String) (b : Battle) : Prop :=
  ∀ f, b.fighter? id = some f → UpToDate r cfg f

theorem coherent_iff_freshAt {p : String} {once : Prop} (h : Intact r cfg p once b) :
    Coherent (· = id) r cfg b ↔ FreshAt r cfg id b := by
  constructor
  · intro hb f hf
    exact hb.fighter? hf (hb.fighters id f hf).1
  · intro hfresh
    refine ⟨h.rules, h.config, fun k f hf => ⟨(h.led k f hf).1, fun hid => hfresh f ?_⟩⟩
    rwa [fighter?, ← hid, (h.led k f hf).1]

/-- A command that comes to its end leaves no stats behind. -/
theorem FreshAt.apply {p : String} {once : Prop} {k : Command} (hfresh : FreshAt r cfg id b)
    (h : Intact r cfg p once b) (hk : once → k.Fits b) (hok : k.apply b = .ok c) :
    FreshAt r cfg id c := by
  have hc := (h.apply hk).of_eq_ok hok
  rw [← coherent_iff_freshAt hc]
  exact Coherent.lasting.apply hok ((coherent_iff_freshAt h).2 hfresh)

theorem fighter?_of_mem_values {P : Fighter → Prop} (hb : b.fighters.Every P)
    (hf : f ∈ b.fighters.values) : b.fighter? f.id = some f := by
  obtain ⟨e, he, rfl⟩ := List.mem_map.1 hf
  have hfound := Table.get?_of_mem he
  rw [fighter?, (hb e.1 e.2 hfound).1, hfound]

/-- Whether commands come to an end or fail: a fighter whose stats are not up to date has been so
since a command that failed, for a command that comes to its end keeps them up to date. -/
theorem upToDate_or_derails {player : Option Character} {enemies : Option (List Enemy)}
    (h₁ : b.assemble player enemies = .ok b₁) (ks : List Command) :
    (∀ f ∈ (b₁.after ks).fighters.values,
      UpToDate b.rules b.config f ∨ Derails (FreshAt b.rules b.config f.id) b₁ ks) ∧
    ∀ k c, Command.apply (b₁.after ks) k = .ok c → ∀ f ∈ c.fighters.values,
      FreshAt b.rules b.config f.id (b₁.after ks) → UpToDate b.rules b.config f := by
  have hintact : ∀ ks, Intact b.rules b.config (player.getD b.game.player).id False (b₁.after ks) :=
    fun ks => (Intact.assemble h₁).after False.elim
  refine ⟨fun f hf => ?_, fun k c hok f hf hfresh => ?_⟩
  · have hfirst : FreshAt b.rules b.config f.id b₁ :=
      (coherent_iff_freshAt (hintact [])).1 (Coherent.assemble h₁)
    refine (holds_or_derails hfirst fun pre k c _ hfresh hok => ?_).imp_left fun hfresh => ?_
    · exact hfresh.apply (hintact pre) False.elim hok
    · exact hfresh f (fighter?_of_mem_values (hintact ks).led hf)
  · have hc := ((hintact ks).apply (k := k) False.elim).of_eq_ok hok
    exact hfresh.apply (hintact ks) False.elim hok f (fighter?_of_mem_values hc.led hf)

def overwhelming : Skill where
  id := "overwhelm"
  name := "Overwhelm"
  kind := .special
  mpCost := 0
  hpCost := 0
  power := some (.real 1e300)
  value := none
  target := "enemy"
  description := ""
  buff := none
  debuff := some ⟨"Speed", 3, some 2, .flat⟩

def mighty : Battle :=
  create { Game.plain { Character.plain "hero" with
      stats := .ofList [("MaxHP", 50), ("Speed", 20), ("Attack", .real 1e300)] } with
    skills := [overwhelming] } none ⟨[], [], .standard⟩ {} {}

def shownSpeed (stats : Stat.Block) : Option String :=
  (stats.get? "Speed").bind fun q : Quantity => q.shown.toOption

def overwhelmed : List Command :=
  [.start, .selectAction { kind := .skill, actorId := "hero", skillId := some "overwhelm" },
    .selectTargets ["slime"]]

theorem mighty_runs :
    ∃ b₁ f, mighty.assemble none (some [.plain "slime"]) = .ok b₁ ∧
      (b₁.after overwhelmed).phase = .actionExecute ∧
      (b₁.after overwhelmed).fighter? "slime" = some f ∧
      ¬ UpToDate mighty.rules mighty.config f := by
  have hok : ((do
      let b₁ ← mighty.assemble none (some [.plain "slime"])
      let c ← b₁.startWithin 2
      c.selectAction { kind := .skill, actorId := "hero", skillId := some "overwhelm" }
      ).toOption.bind fun d => (Fallible.failure? (d.selectTargets ["slime"])).bind fun h =>
        (h.left.fighter? "slime").map fun f : Fighter =>
          (h.left.phase, shownSpeed f.stats,
            (statsOf mighty.rules f).toOption.bind shownSpeed)) =
      some (.actionExecute, some "5", some "2") := by
    decide +kernel
  obtain ⟨d, h, hfails⟩ := Option.bind_eq_some_iff.1 hok
  simp only [Fallible.toOption_eq_some, Fallible.bind_eq_ok] at h
  obtain ⟨b₁, h₁, c, hstart, hselect⟩ := h
  obtain ⟨halt, hhalt, hfound⟩ := Option.bind_eq_some_iff.1 hfails
  obtain ⟨f, hf, hspeed⟩ := Option.map_eq_some_iff.1 hfound
  simp only [Prod.mk.injEq] at hspeed
  obtain ⟨hphase, hstale, hfresh⟩ := hspeed
  have hafter : b₁.after overwhelmed = halt.left := by
    have hstart := start_of_startWithin hstart
    have hhalt := Fallible.eq_error_of_failure? hhalt
    simp only [after, overwhelmed, List.foldl_cons, List.foldl_nil, Command.leaves, Command.apply,
      hstart, hselect, hhalt]
  refine ⟨b₁, f, h₁, by rw [hafter, hphase], by rw [hafter, hf], ?_⟩
  rintro ⟨complete, hcomplete, happly, -⟩
  rw [statsOf_eq_ok.2 ⟨complete, hcomplete, happly⟩] at hfresh
  have hsame : some "5" = some "2" := hstale.symm.trans hfresh
  simp at hsame

theorem upToDate_or_derails_mighty :
    ∃ b₁ f, mighty.assemble none (some [.plain "slime"]) = .ok b₁ ∧
      f ∈ (b₁.after overwhelmed).fighters.values ∧
      Derails (FreshAt mighty.rules mighty.config f.id) b₁ overwhelmed := by
  obtain ⟨b₁, f, h₁, -, hf, hstale⟩ := mighty_runs
  have hmem := Table.mem_values_of_get? hf
  exact ⟨b₁, f, h₁, hmem, ((upToDate_or_derails h₁ overwhelmed).1 f hmem).resolve_left hstale⟩

/-- After a hit that failed the targets are called off, which does nothing: the slime's stats are
not up to date. -/
theorem not_upToDate_mighty :
    ∃ b₁ c f, mighty.assemble none (some [.plain "slime"]) = .ok b₁ ∧
      Command.apply (b₁.after overwhelmed) .cancelTargets = .ok c ∧ f ∈ c.fighters.values ∧
      ¬ UpToDate mighty.rules mighty.config f := by
  obtain ⟨b₁, f, h₁, hphase, hf, hstale⟩ := mighty_runs
  refine ⟨b₁, b₁.after overwhelmed, f, h₁, ?_, Table.mem_values_of_get? hf, hstale⟩
  simp [Command.apply, cancelTargets, hphase]

end Skirmish.Battle

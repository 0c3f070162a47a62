import Skirmish.Proofs.Battle.Steps
import Skirmish.Proofs.Content.Kinds
import Skirmish.Proofs.Number.Quantity
import Skirmish.Proofs.Stat.Names

namespace Skirmish.Battle

open Fallible

variable {b : Battle} {f : Fighter} {err : Error}

/-- Something is wrong with a value, and not only that it is too large. -/
def Error.isBadValue : Error → Bool
  | unknownAction _ | unknownEvent _ | notExecutable _ => true
  | formula (.arithmetic cause) => cause = .undefined
  | formula cause => cause ≠ .tooDeep
  | chance .nothingToPick => true
  | chance .outOfRange => false
  | chance (.arithmetic cause) => cause = .undefined
  | arithmetic cause => cause = .undefined
  | nothingToResume | turnLimit => false

def statsFrom (r : Stat.Rules) (base : Stat.Block) (level : Quantity) (modifiers : Modifier.Stack) :
    Except Error Stat.Block := do
  let complete ← (r.completeStats base level).mapError .formula
  arithmetic (modifiers.applyTo complete.withCanonicalNames)

theorem statsOf_eq (r : Stat.Rules) (f : Fighter) :
    statsOf r f = statsFrom r f.baseStats f.level f.modifiers := rfl

def scriptModifier (b : Battle) (stat : String) (value : Quantity) (duration : Option Int) :
    Modifier.Definition :=
  .timed ("trigger_buff_" ++ toString (b.buffsMade + 1)) "Battle Effect" ⟨stat, .flat, value⟩
    (some (duration.getD b.config.buffDuration)) "Applied by battle trigger"

/-- An event fails over a fighter that it brings in or changes: its stats have no value, or what it
keeps of its life is no number. -/
inductive Spoils (b : Battle) : Event → Error → Prop
  | spawn {enemyId : String} {e : Enemy} {err : Error} (he : b.game.enemy? enemyId = some e)
      (h : statsFrom b.rules e.stats 1 {} = .error err) : Spoils b (.spawn enemyId) err
  | buff {stat : String} {value : Quantity} {target : Option String} {duration : Option Int}
      {f : Fighter} {err : Error} (hf : b.target? target = some f)
      (h : statsFrom b.rules f.baseStats f.level
        (f.modifiers.add (b.scriptModifier stat value duration) "buff") = .error err) :
      Spoils b (.buff stat value target duration) err
  | transform {enemyId : String} {target : Option String} {e : Enemy} {f : Fighter} {err : Error}
      {share : Float} (he : b.game.enemy? enemyId = some e) (hf : b.target? target = some f)
      (hside : f.isPlayer = false) (hshare : shareOf f = .ok share)
      (h : statsFrom b.rules e.stats f.level f.modifiers = .error err) :
      Spoils b (.transform enemyId target) err
  | life {enemyId : String} {target : Option String} {e : Enemy} {f : Fighter}
      {stats : Stat.Block} (he : b.game.enemy? enemyId = some e) (hf : b.target? target = some f)
      (hside : f.isPlayer = false)
      (hstats : statsFrom b.rules e.stats f.level f.modifiers = .ok stats)
      (h : keptHp f (stats.getD "MaxHP" b.config.defaultMaxHp) = .error (.arithmetic .undefined)) :
      Spoils b (.transform enemyId target) (.arithmetic .undefined)

/-- Only numbers that are too large stand in the way. -/
def Error.IsHarmless (err : Error) : Prop := err.isBadValue = false

abbrev Harmless {α : Type} (r : Result α) : Prop := FailsOnly (fun h => h.cause.IsHarmless) r

theorem arithmetic_harmless {α : Type} {r : Quantity.Result α} (h : Quantity.OnlyOverflows r) :
    FailsOnly Error.IsHarmless (arithmetic r) := by
  refine h.mapError ?_
  rintro cause rfl
  rfl

theorem Error.not_isHarmless (herr : err.isBadValue = true) : ¬ err.IsHarmless := by
  simp [IsHarmless, herr]

theorem queueDialog_harmless (b : Battle) (d : Dialog) : Harmless (b.queueDialog d) := by
  intro err h
  simp only [queueDialog] at h
  repeat' split at h
  all_goals cases h
  rfl

theorem scriptHeal_harmless (b : Battle) (amount : Quantity) (f : Fighter) :
    Harmless (b.scriptHeal amount f) := by
  have hheal : FailsOnly (fun h => h.cause = .overflow) (f.restoreHp amount) :=
    (Quantity.add_overflows _ _).leaving.bind fun sum _ =>
      (Quantity.sub_overflows _ _).leaving.bind fun gained _ => .ok _
  refine (hheal.mapError ?_).bind fun healed _ => ?_
  · rintro ⟨cause, left⟩ rfl
    rfl
  · exact (arithmetic_harmless (Quantity.shown_overflows _)).leaving.bind fun shown _ => .ok _

theorem scriptDamage_harmless (b : Battle) (amount : Quantity) (f : Fighter) :
    Harmless (b.scriptDamage amount f) := by
  refine (arithmetic_harmless ?_).leaving.bind fun after _ => ?_
  · exact (Quantity.sub_overflows _ _).bind fun hp _ => .ok _
  · exact (arithmetic_harmless (Quantity.shown_overflows _)).leaving.bind fun shown _ => .ok _

theorem shareOf_harmless (f : Fighter) : FailsOnly Error.IsHarmless (shareOf f) := by
  rw [shareOf]
  split
  · exact arithmetic_harmless (Quantity.div_overflows _ _)
  · exact .ok _

theorem sum_overflows (total : Quantity) (qs : List Quantity) :
    Quantity.OnlyOverflows (sum total qs) := by
  induction qs generalizing total with
  | nil => exact .ok _
  | cons q qs ih => exact (Quantity.add_overflows _ _).bind fun total _ => ih total

theorem meanInitiative_overflows (queue : List Initiative.Entry) :
    Quantity.OnlyOverflows (meanInitiative queue) := by
  rw [meanInitiative]
  split
  · exact .ok _
  · refine (sum_overflows _ _).bind fun total _ => ?_
    exact (Quantity.div_overflows _ _).bind fun mean _ => .ok _

theorem withFighter_harmless {f? : Option Fighter} {step : Fighter → Result Battle}
    (hstep : ∀ f, Harmless (step f)) : Harmless (b.withFighter f? step) := by
  cases f? with
  | none => exact .ok b
  | some f => exact hstep f

theorem recruitEnemy_eq_error {e : Enemy} {id : String} :
    recruitEnemy b e id = .error err ↔ statsFrom b.rules e.stats 1 {} = .error err := by
  simp only [recruitEnemy, recruit, renew, refreshWith, statsOf_eq, bind_eq_error, pure_eq,
    reduceCtorEq, and_false, exists_false, or_false]

theorem spawn_failsWith {e : Enemy} (herr : err.isBadValue = true) :
    FailsWith (b.spawn e) err ↔ statsFrom b.rules e.stats 1 {} = .error err := by
  have hqueue : ∀ c : Battle, arithmetic (meanInitiative c.queue) ≠ .error err := fun c h =>
    Error.not_isHarmless herr (arithmetic_harmless (meanInitiative_overflows _) err h)
  simp only [Battle.spawn, enroll, failsWith_bind, failsWith_leaving, recruitEnemy_eq_error,
    pure_eq, hqueue, not_failsWith_ok, and_false, exists_false, or_false]

theorem refresh_eq_error {r : Stat.Rules} :
    refresh r f = .error err ↔ statsFrom r f.baseStats f.level f.modifiers = .error err := by
  simp only [refresh, refreshWith, statsOf_eq, bind_eq_error, pure_eq, reduceCtorEq, and_false,
    exists_false, or_false]

theorem scriptBuff_failsWith {stat : String} {value : Quantity} {duration : Option Int} :
    FailsWith (b.scriptBuff stat value duration f) err ↔
      statsFrom b.rules f.baseStats f.level
        (f.modifiers.add (b.scriptModifier stat value duration) "buff") = .error err := by
  simp only [scriptBuff, failsWith_bind, failsWith_leaving, refresh_eq_error, pure_eq,
    not_failsWith_ok, and_false, exists_false, or_false]
  rfl

theorem eq_undefined_of_keptHp {maxHp : Quantity} (herr : err.isBadValue = true)
    (h : keptHp f maxHp = .error err) : err = .arithmetic .undefined := by
  rcases bind_eq_error.1 h with h | ⟨share, -, h⟩
  · exact absurd (shareOf_harmless f err h) (Error.not_isHarmless herr)
  · obtain ⟨cause, -, rfl⟩ := mapError_eq_error.1 h
    exact congrArg Error.arithmetic (by simpa [Error.isBadValue] using herr)

theorem transform_failsWith {e : Enemy} (herr : err.isBadValue = true) :
    FailsWith (b.transform f e) err ↔
      (∃ share, shareOf f = .ok share ∧
        statsFrom b.rules e.stats f.level f.modifiers = .error err) ∨
      ∃ stats, statsFrom b.rules e.stats f.level f.modifiers = .ok stats ∧
        keptHp f (stats.getD "MaxHP" b.config.defaultMaxHp) = .error err := by
  have hshare : shareOf f ≠ .error err := fun h =>
    Error.not_isHarmless herr (shareOf_harmless f err h)
  -- both sides go by the share of life, which the event computes where it stands
  rw [shareOf] at hshare
  simp only [transform, keptHp, shareOf, failsWith_bind, failsWith_leaving, leaving_eq_ok, renew,
    refreshWith, statsOf_eq, bind_eq_error, bind_eq_ok, pure_eq, not_failsWith_ok, Except.ok.injEq,
    exists_exists_and_eq_and, reduceCtorEq, and_false, exists_false, or_false, hshare, false_or]
  cases hstats : statsFrom b.rules e.stats f.level f.modifiers with
  | error cause => simp
  | ok stats => simp

theorem spoils_of_perform {e : Event} (he : e.isDeed = true) (herr : err.isBadValue = true)
    (h : FailsWith (Battle.perform b e) err) : Spoils b e err := by
  cases e with
  | dialog => cases he
  | multi => cases he
  | other => cases he
  | spawn enemyId =>
      rw [Battle.perform] at h
      split at h
      next => exact absurd h (not_failsWith_ok b)
      next e hfound => exact .spawn hfound ((spawn_failsWith herr).1 h)
  | buff stat value target duration =>
      rw [Battle.perform] at h
      cases hf : b.target? target with
      | none =>
          rw [hf] at h
          exact absurd h (not_failsWith_ok b)
      | some f =>
          rw [hf] at h
          exact .buff hf (scriptBuff_failsWith.1 h)
  | heal amount target =>
      rw [Battle.perform] at h
      exact absurd h ((withFighter_harmless (scriptHeal_harmless b amount)).not_failsWith
        (Error.not_isHarmless herr))
  | damage amount target =>
      rw [Battle.perform] at h
      exact absurd h ((withFighter_harmless (scriptDamage_harmless b amount)).not_failsWith
        (Error.not_isHarmless herr))
  | flee target =>
      rw [Battle.perform] at h
      exact absurd h (not_failsWith_ok _)
  | transform enemyId target =>
      rw [Battle.perform, scriptTransform] at h
      split at h
      next e f hfound hf =>
        split at h
        next => exact absurd h (not_failsWith_ok b)
        next hside =>
          have hside : f.isPlayer = false := by simpa using hside
          rcases (transform_failsWith herr).1 h with ⟨share, hshare, h⟩ | ⟨stats, hstats, h⟩
          · exact .transform hfound hf hside hshare h
          · obtain rfl := eq_undefined_of_keptHp herr h
            exact .life hfound hf hside hstats h
      next => exact absurd h (not_failsWith_ok b)

theorem Spoils.perform {e : Event} (h : Spoils b e err) (herr : err.isBadValue = true) :
    FailsWith (Battle.perform b e) err := by
  cases h with
  | spawn hfound h =>
      rw [Battle.perform, hfound]
      exact (spawn_failsWith herr).2 h
  | buff hf h =>
      rw [Battle.perform, hf]
      exact scriptBuff_failsWith.2 h
  | transform hfound hf hside hshare h =>
      rw [Battle.perform, scriptTransform, hfound, hf]
      simp only [hside, Bool.false_eq_true, if_false]
      exact (transform_failsWith herr).2 (.inl ⟨_, hshare, h⟩)
  | life hfound hf hside hstats h =>
      rw [Battle.perform, scriptTransform, hfound, hf]
      simp only [hside, Bool.false_eq_true, if_false]
      exact (transform_failsWith herr).2 (.inr ⟨_, hstats, h⟩)

theorem Reaches.failsWith {x y : Call} (h : Reaches x y) (herr : FailsWith y.result err) :
    FailsWith x.result err := by
  induction h with
  | refl => exact herr
  | tail _ hcall ih => exact ih (hcall.failsWith herr)

mutual

theorem exists_spoils {b : Battle} {err : Error} (herr : err.isBadValue = true) :
    ∀ e : Event, e.Known → FailsWith (Battle.perform b e) err →
      ∃ c d, Reaches (b, .perform e) (c, .perform d) ∧ Spoils c d err
  | .dialog text speaker options, _, h => by
      rw [Battle.perform] at h
      exact absurd h ((queueDialog_harmless b _).not_failsWith (Error.not_isHarmless herr))
  | .multi events, he, h => by
      rw [Battle.perform] at h
      have hknown : ∀ e ∈ events, e.Known := by
        cases he with
        | multi hevents => exact hevents
      obtain ⟨c, d, hreaches, hspoils⟩ := exists_spoils_all herr events hknown h
      exact ⟨c, d, hreaches.head .multi, hspoils⟩
  | .other text, he, _ => by cases he
  | .spawn _, _, h | .buff .., _, h | .heal .., _, h | .damage .., _, h | .flee _, _, h
  | .transform .., _, h => ⟨b, _, .refl, spoils_of_perform rfl herr h⟩

theorem exists_spoils_all {b : Battle} {err : Error} (herr : err.isBadValue = true) :
    ∀ es : List Event, (∀ e ∈ es, e.Known) → FailsWith (Battle.performAll b es) err →
      ∃ c d, Reaches (b, .performAll es) (c, .perform d) ∧ Spoils c d err
  | [], _, h => by
      rw [Battle.performAll] at h
      exact absurd h (not_failsWith_ok b)
  | e :: es, hes, h => by
      rw [Battle.performAll] at h
      rcases failsWith_bind.1 h with h | ⟨c, hc, h⟩
      · obtain ⟨c, d, hreaches, hspoils⟩ :=
          exists_spoils herr e (hes e (List.mem_cons_self ..)) h
        exact ⟨c, d, hreaches.head .first, hspoils⟩
      · obtain ⟨c', d, hreaches, hspoils⟩ :=
          exists_spoils_all herr es (fun e he => hes e (List.mem_cons_of_mem _ he)) h
        exact ⟨c', d, hreaches.head (.rest hc), hspoils⟩

end

/-- An event of a known kind fails over a value exactly if it comes to one that spoils a fighter. -/
theorem perform_failsWith {e : Event} (he : e.Known) (herr : err.isBadValue = true) :
    FailsWith (Battle.perform b e) err ↔
      ∃ c d, Reaches (b, .perform e) (c, .perform d) ∧ Spoils c d err := by
  refine ⟨exists_spoils herr e he, ?_⟩
  rintro ⟨c, d, hreaches, hspoils⟩
  exact hreaches.failsWith (hspoils.perform herr)

end Skirmish.Battle

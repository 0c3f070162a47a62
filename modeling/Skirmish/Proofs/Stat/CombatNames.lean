import Skirmish.Proofs.Stat.Names

namespace Skirmish.Stat

open Formula Rules

variable {cfg : Config} {r : Rules} {known : List String} {block context stats out attacker : Block}
  {ds : List Derived} {level : Quantity} {formula n : String}

/-- The names of combat formulas that only damage gives a number to. -/
def enemyNames : List String := ["EnemyDef", "EnemyRes", "EnemySpeed", "EnemyEvasion"]

theorem mem_combatNames : n ∈ combatNames ↔ n ∈ enemyNames ∨ n = "Level" := by
  simp [combatNames, enemyNames, or_assoc]

theorem keys_deriveFrom (h : deriveFrom context stats ds = .ok out) :
    n ∈ out.keys ↔ n ∈ stats.keys ∨ n ∈ ds.map Derived.id := by
  induction ds generalizing context stats with
  | nil =>
      cases h
      simp
  | cons d ds ih =>
      simp only [deriveFrom, Fallible.bind_eq_ok] at h
      obtain ⟨x, -, k, -, h⟩ := h
      rw [ih h, Table.mem_keys_insert, List.map_cons, List.mem_cons, or_assoc, or_left_comm]

theorem keys_completeStats (h : r.completeStats block level = .ok out) :
    n ∈ out.keys ↔ n = "Level" ∨ n ∈ block.keys ∨ n ∈ r.derived.map Derived.id := by
  obtain ⟨derived, hderived, h⟩ := Fallible.bind_eq_ok.1 h
  cases h
  rw [derivedStats] at hderived
  show n ∈ (Table.insertAll _ derived.entries).keys ↔ _
  rw [Table.mem_keys_insertAll, Table.mem_keys_insert, or_assoc]
  refine or_congr_right (or_congr_right ?_)
  rw [← Table.keys, keys_deriveFrom hderived]
  simp [Table.keys, EmptyCollection.emptyCollection, Table.empty]

theorem Accepted.mem_keys (h : Accepted cfg r known)
    (hblock : ∀ s ∈ cfg.primary, s.id ∈ block.keys)
    (hattacker : r.completeStats block level = .ok attacker) (hn : n ∈ known) :
    n ∈ attacker.keys := by
  rw [mem_known h.checked, List.mem_cons, List.mem_map] at hn
  rw [keys_completeStats hattacker, h.derived]
  rcases hn with (rfl | ⟨s, hs, rfl⟩) | hderived
  · exact .inl rfl
  · exact .inr (.inl (hblock s hs))
  · exact .inr (.inr hderived)

theorem mem_keys_damageStats (defender : Block) :
    n ∈ (damageStats attacker defender).keys ↔ n ∈ enemyNames ∨ n ∈ attacker.keys := by
  simp only [damageStats, Table.mem_keys_insert, enemyNames, List.mem_cons, List.not_mem_nil,
    or_false, or_assoc]
  tauto

/-- No id is read as a path. -/
def Config.Plain (cfg : Config) : Prop :=
  (∀ s ∈ cfg.primary, '.' ∉ s.id.toList) ∧ ∀ d ∈ cfg.derived, '.' ∉ d.id.toList

theorem Accepted.plain (h : Accepted cfg r known) (hplain : cfg.Plain)
    (hn : n ∈ combatNames ++ known) : '.' ∉ n.toList := by
  rw [List.mem_append, mem_known h.checked, List.mem_cons, List.mem_map, List.mem_map] at hn
  rcases hn with hcombat | (rfl | ⟨s, hs, rfl⟩) | ⟨d, hd, rfl⟩
  · have hall : ∀ m ∈ combatNames, '.' ∉ m.toList := by decide
    exact hall n hcombat
  · decide
  · exact hplain.1 s hs
  · exact hplain.2 d hd

/-- A combat formula misses exactly the names that it comes to and that the block lacks. -/
theorem Accepted.compute_eq_unknown (h : Accepted cfg r known) (hplain : cfg.Plain)
    (hformula : formula ∈ r.combat.formulas) (b : Block) :
    compute formula (.ofBlock b) = .error (.unknownVariable n) ↔
      n ∈ combatNames ++ known ∧ n ∉ b.keys ∧ Formula.Meets formula (.ofBlock b) (.name n) := by
  obtain ⟨e, he, hnames⟩ := h.combat formula hformula
  rw [compute_eq_unknownVariable, Context.resolve_ofBlock_eq_unknown]
  constructor
  · rintro ⟨hmeets, hmissing⟩
    have hn := hnames (hmeets.mem_names he)
    exact ⟨hn, hmissing.resolve_left (h.plain hplain hn), hmeets⟩
  · rintro ⟨-, hmissing, hmeets⟩
    exact ⟨hmeets, .inr hmissing⟩

theorem damage_eq_unknown {defender : Block} :
    damage formula attacker defender = .error (.unknownVariable n) ↔
      compute formula (.ofBlock (damageStats attacker defender)) = .error (.unknownVariable n) := by
  rw [damage, Fallible.bind_eq_error]
  refine or_iff_left ?_
  rintro ⟨x, -, h⟩
  rcases Fallible.bind_eq_error.1 h with hfloor | ⟨k, -, hreturn⟩
  · obtain ⟨cause, -, hcause⟩ := Fallible.mapError_eq_error.1 hfloor
    cases hcause
  · cases hreturn

theorem criticalChance_eq_unknown :
    r.criticalChance attacker = .error (.unknownVariable n) ↔
      compute r.combat.criticalCheck (.ofBlock attacker) = .error (.unknownVariable n) := by
  rw [criticalChance, Fallible.bind_eq_error]
  refine or_iff_left ?_
  rintro ⟨x, -, h⟩
  cases h

section

variable (h : Accepted cfg r known) (hblock : ∀ s ∈ cfg.primary, s.id ∈ block.keys)
  (hattacker : r.completeStats block level = .ok attacker)

include h hblock hattacker

theorem Accepted.enemy_or_mem_keys (hn : n ∈ combatNames ++ known) :
    n ∈ enemyNames ∨ n ∈ attacker.keys := by
  rcases List.mem_append.1 hn with hcombat | hknown
  · refine (mem_combatNames.1 hcombat).imp_right ?_
    rintro rfl
    exact (keys_completeStats hattacker).2 (.inl rfl)
  · exact .inr (h.mem_keys hblock hattacker hknown)

theorem Accepted.damage_ne_unknown (hplain : cfg.Plain) (hformula : formula ∈ r.combat.formulas)
    (defender : Block) (n : String) :
    damage formula attacker defender ≠ .error (.unknownVariable n) := by
  intro hunknown
  rw [damage_eq_unknown, h.compute_eq_unknown hplain hformula, mem_keys_damageStats] at hunknown
  obtain ⟨hn, hmissing, -⟩ := hunknown
  exact hmissing (h.enemy_or_mem_keys hblock hattacker hn)

theorem Accepted.compute_attacker_eq_unknown (hplain : cfg.Plain)
    (hformula : formula ∈ r.combat.formulas) (n : String) :
    compute formula (.ofBlock attacker) = .error (.unknownVariable n) ↔
      n ∈ enemyNames ∧ n ∉ attacker.keys ∧
        Formula.Meets formula (.ofBlock attacker) (.name n) := by
  rw [h.compute_eq_unknown hplain hformula]
  constructor
  · rintro ⟨hn, hmissing, hmeets⟩
    have henemy := (h.enemy_or_mem_keys hblock hattacker hn).resolve_right hmissing
    exact ⟨henemy, hmissing, hmeets⟩
  · rintro ⟨henemy, hmissing, hmeets⟩
    exact ⟨List.mem_append_left _ (mem_combatNames.2 (.inl henemy)), hmissing, hmeets⟩

end

/-- With an accepted configuration whose ids are no paths, damage knows all its variables. The
critical check and the turn order miss a variable exactly if they come to one of the enemy's names
and the attacker has no stat of that name. -/
theorem unknownVariable_iff (h : ofConfig cfg = .ok r) (hplain : cfg.Plain)
    (hblock : ∀ s ∈ cfg.primary, s.id ∈ block.keys)
    (hattacker : r.completeStats block level = .ok attacker) :
    (∀ defender n, r.physicalDamage attacker defender ≠ .error (.unknownVariable n)) ∧
      (∀ defender n, r.magicDamage attacker defender ≠ .error (.unknownVariable n)) ∧
      (∀ n, r.criticalChance attacker = .error (.unknownVariable n) ↔
        n ∈ enemyNames ∧ n ∉ attacker.keys ∧
          Formula.Meets r.combat.criticalCheck (.ofBlock attacker) (.name n)) ∧
      ∀ n, r.turnOrder attacker = .error (.unknownVariable n) ↔
        n ∈ enemyNames ∧ n ∉ attacker.keys ∧
          Formula.Meets r.combat.turnOrder (.ofBlock attacker) (.name n) := by
  obtain ⟨known, haccepted⟩ := exists_accepted h
  have hphysical : r.combat.physicalDamage ∈ r.combat.formulas := by simp [CombatFormulas.formulas]
  have hmagic : r.combat.magicDamage ∈ r.combat.formulas := by simp [CombatFormulas.formulas]
  have hcritical : r.combat.criticalCheck ∈ r.combat.formulas := by simp [CombatFormulas.formulas]
  have hturn : r.combat.turnOrder ∈ r.combat.formulas := by simp [CombatFormulas.formulas]
  refine ⟨haccepted.damage_ne_unknown hblock hattacker hplain hphysical,
    haccepted.damage_ne_unknown hblock hattacker hplain hmagic, fun n => ?_,
    haccepted.compute_attacker_eq_unknown hblock hattacker hplain hturn⟩
  rw [criticalChance_eq_unknown]
  exact haccepted.compute_attacker_eq_unknown hblock hattacker hplain hcritical n

theorem unknownVariable_iff_standard : ∃ r attacker, ofConfig .standard = .ok r ∧
    Config.standard.Plain ∧ (∀ s ∈ Config.standard.primary, s.id ∈ r.defaultBlock.keys) ∧
    r.completeStats r.defaultBlock 5 = .ok attacker ∧
    (∀ defender n, r.physicalDamage attacker defender ≠ .error (.unknownVariable n)) ∧
      (∀ defender n, r.magicDamage attacker defender ≠ .error (.unknownVariable n)) ∧
      (∀ n, r.criticalChance attacker = .error (.unknownVariable n) ↔
        n ∈ enemyNames ∧ n ∉ attacker.keys ∧
          Formula.Meets r.combat.criticalCheck (.ofBlock attacker) (.name n)) ∧
      ∀ n, r.turnOrder attacker = .error (.unknownVariable n) ↔
        n ∈ enemyNames ∧ n ∉ attacker.keys ∧
          Formula.Meets r.combat.turnOrder (.ofBlock attacker) (.name n) := by
  obtain ⟨r, attacker, hr, hblock, hattacker⟩ := exists_rules_standard
  have hplain : Config.standard.Plain := ⟨by decide, by decide⟩
  exact ⟨r, attacker, hr, hplain, hblock, hattacker,
    unknownVariable_iff hr hplain hblock hattacker⟩

def watchful : Config where
  primary := [{ id := "Strength", name := "Strength" }]
  derived := []
  combat := some ⟨"Strength", "Strength", "EnemyEvasion", "Strength + EnemySpeed"⟩

/-- The check lets names of the enemy pass in formulas that are computed without an enemy. -/
theorem exists_unknownVariable_watchful : ∃ r attacker, ofConfig watchful = .ok r ∧
    watchful.Plain ∧
    (∀ s ∈ watchful.primary, s.id ∈ (Table.ofList [("Strength", (10 : Quantity))]).keys) ∧
    r.completeStats (Table.ofList [("Strength", 10)]) 1 = .ok attacker ∧
    r.criticalChance attacker = .error (.unknownVariable "EnemyEvasion") ∧
    r.turnOrder attacker = .error (.unknownVariable "EnemySpeed") := by
  have hruns : (ofConfig watchful).toOption.bind (fun r =>
      (r.completeStats (Table.ofList [("Strength", 10)]) 1).toOption.map fun attacker =>
        (Fallible.failure? (r.criticalChance attacker), Fallible.failure? (r.turnOrder attacker))) =
      some (some (.unknownVariable "EnemyEvasion"), some (.unknownVariable "EnemySpeed")) := by
    decide +kernel
  obtain ⟨r, hr, hattacks⟩ := Fallible.exists_eq_ok_bind hruns
  obtain ⟨attacker, hattacker, hfails⟩ := Fallible.exists_eq_ok_and hattacks
  obtain ⟨hcritical, hturn⟩ := Prod.mk.inj hfails
  exact ⟨r, attacker, hr, ⟨by decide, by decide⟩, by decide, hattacker,
    Fallible.eq_error_of_failure? hcritical, Fallible.eq_error_of_failure? hturn⟩

end Skirmish.Stat

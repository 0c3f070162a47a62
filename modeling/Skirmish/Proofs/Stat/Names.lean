import Skirmish.Proofs.Formula.Evaluation
import Skirmish.Proofs.Formula.Names
import Skirmish.Proofs.Table
import Skirmish.Stat.Rules

namespace Skirmish

namespace Text

theorem splitOn_of_notMem {c : Char} {cs : List Char} (h : c ∉ cs) : splitOn c cs = [cs] := by
  induction cs with
  | nil => rfl
  | cons d cs ih =>
      rw [List.mem_cons, not_or] at h
      simp [splitOn, ih h.2, Ne.symm h.1]

theorem exists_splitOn_cons (c : Char) (cs : List Char) :
    ∃ part parts, splitOn c cs = part :: parts := by
  cases cs with
  | nil => exact ⟨[], [], rfl⟩
  | cons d cs =>
      rw [splitOn]
      split
      next => exact ⟨_, _, rfl⟩
      next part parts _ => split <;> exact ⟨_, _, rfl⟩

theorem exists_splitOn_of_mem {c : Char} {cs : List Char} (h : c ∈ cs) :
    ∃ first second more, splitOn c cs = first :: second :: more := by
  induction cs with
  | nil => cases h
  | cons d cs ih =>
      by_cases hd : d = c
      · obtain ⟨part, parts, hrest⟩ := exists_splitOn_cons c cs
        exact ⟨[], part, parts, by simp [splitOn, hrest, hd]⟩
      · have hmem : c ∈ cs := (List.mem_cons.1 h).resolve_left (Ne.symm hd)
        obtain ⟨first, second, more, hrest⟩ := ih hmem
        exact ⟨d :: first, second, more, by simp [splitOn, hrest, hd]⟩

end Text

namespace Formula.Context

variable {b : Table Quantity} {n : String}

theorem at?_ofBlock (b : Table Quantity) (part : String) (more : List String) :
    (ofBlock b).at? (part :: more) = (b.get? part).bind fun q => (number q).at? more := by
  have hmap := Table.get?_map (fun _ q => number q) b part
  rw [ofBlock, at?]
  show (Table.lookup part (b.map fun _ q => number q).entries).bind _ = _
  rw [← Table.get?, hmap]
  cases b.get? part <;> rfl

theorem at?_ofBlock_parts : (∃ q, (ofBlock b).at? (Text.parts '.' n) = some (number q)) ↔
    '.' ∉ n.toList ∧ n ∈ b.keys := by
  by_cases hdot : '.' ∈ n.toList
  · obtain ⟨first, second, more, hparts⟩ := Text.exists_splitOn_of_mem hdot
    simp only [Text.parts, hparts, List.map_cons, at?_ofBlock]
    cases b.get? (String.ofList first) <;> simp [at?, hdot]
  · rw [Text.parts, Text.splitOn_of_notMem hdot, ← Table.exists_get?_iff]
    simp only [List.map_cons, List.map_nil, String.ofList_toList, at?_ofBlock]
    cases b.get? n <;> simp [at?, hdot]

theorem resolve_ofBlock_eq_unknown : (ofBlock b).resolve n = .error (.unknownVariable n) ↔
    '.' ∈ n.toList ∨ n ∉ b.keys := by
  have hnone : (∀ q, (ofBlock b).at? (Text.parts '.' n) ≠ some (number q)) ↔
      '.' ∈ n.toList ∨ n ∉ b.keys := by
    rw [← not_exists, at?_ofBlock_parts, not_and_or, not_not]
  simp [resolve_eq_error, hnone]

end Formula.Context

namespace Stat

open Formula Rules

variable {place : FormulaPlace} {formula : String} {available known : List String}
  {context stats out : Block} {ds : List Derived} {err : Error} {level : Quantity}

theorem exists_parse_of_checkFormula (h : checkFormula place formula available = .ok ()) :
    ∃ e, parse formula = .ok e ∧ e.names ⊆ available := by
  rw [checkFormula] at h
  split at h
  next => cases h
  next e he =>
    refine ⟨e, he, fun n hn => ?_⟩
    split at h
    next => cases h
    next hall =>
      have hknown := List.find?_eq_none.1 hall n (Expr.mem_distinctNames.2 hn)
      simpa using hknown

theorem mem_known {n : String} (h : checkDerived available ds = .ok known) :
    n ∈ known ↔ n ∈ available ∨ n ∈ ds.map Derived.id := by
  induction ds generalizing available with
  | nil =>
      cases h
      simp
  | cons d ds ih =>
      simp only [checkDerived, Fallible.bind_eq_ok] at h
      obtain ⟨-, -, hds⟩ := h
      rw [ih hds, List.map_cons, List.mem_cons, List.mem_cons, or_assoc, or_left_comm]

/-- The computation of derived stats comes to one of them, in the block computed until then. -/
inductive Comes : Block → List Derived → Derived → Block → Prop
  | first (b : Block) (d : Derived) (ds : List Derived) : Comes b (d :: ds) d b
  | later {b b' : Block} {d d' : Derived} {ds : List Derived} {x : Float} {n : Int}
      (hx : compute d.formula (.ofBlock b) = .ok x) (hn : (Quantity.real x).floor = .ok n)
      (h : Comes (b.insert d.id (.whole n)) ds d' b') : Comes b (d :: ds) d' b'

theorem deriveFrom_eq_error (herr : ∀ cause, err ≠ .arithmetic cause) :
    deriveFrom context stats ds = .error err ↔
      ∃ d b, Comes context ds d b ∧ compute d.formula (.ofBlock b) = .error err := by
  induction ds generalizing context stats with
  | nil =>
      simp only [deriveFrom, reduceCtorEq, false_iff]
      rintro ⟨d, b, hcomes, -⟩
      cases hcomes
  | cons d ds ih =>
      simp only [deriveFrom, Fallible.bind_eq_error, ih]
      constructor
      · rintro (hd | ⟨x, hx, hfloor | ⟨n, hn, d', b, hcomes, h⟩⟩)
        · exact ⟨d, context, .first _ _ _, hd⟩
        · obtain ⟨cause, -, hcause⟩ := Fallible.mapError_eq_error.1 hfloor
          exact absurd hcause.symm (herr cause)
        · exact ⟨d', b, .later hx (Fallible.mapError_eq_ok.1 hn) hcomes, h⟩
      · rintro ⟨d', b, hcomes, h⟩
        cases hcomes with
        | first => exact .inl h
        | later hx hn hcomes =>
          exact .inr ⟨_, hx, .inr ⟨_, Fallible.mapError_eq_ok.2 hn, d', b, hcomes, h⟩⟩

theorem Comes.exists_parse {d : Derived} {b : Block} (h : Comes context ds d b)
    (hcheck : checkDerived available ds = .ok known) (hkeys : available ⊆ context.keys) :
    ∃ e, parse d.formula = .ok e ∧ e.names ⊆ b.keys := by
  induction h generalizing available with
  | first b d ds =>
      simp only [checkDerived, Fallible.bind_eq_ok] at hcheck
      obtain ⟨⟨⟩, hformula, -⟩ := hcheck
      obtain ⟨e, he, hnames⟩ := exists_parse_of_checkFormula hformula
      exact ⟨e, he, fun n hn => hkeys (hnames hn)⟩
  | later hx hn _ ih =>
      simp only [checkDerived, Fallible.bind_eq_ok] at hcheck
      obtain ⟨-, -, hrest⟩ := hcheck
      refine ih hrest fun n hn => Table.mem_keys_insert.2 ?_
      exact (List.mem_cons.1 hn).imp_right fun hn => hkeys hn

def CombatFormulas.formulas (c : CombatFormulas) : List String :=
  [c.physicalDamage, c.magicDamage, c.criticalCheck, c.turnOrder]

/-- What a configuration has passed when there are rules of it. -/
structure Accepted (cfg : Config) (r : Rules) (known : List String) : Prop where
  derived : r.derived = cfg.derived
  checked : checkDerived ("Level" :: cfg.primary.map Primary.id) cfg.derived = .ok known
  combat : ∀ formula ∈ r.combat.formulas,
    ∃ e, parse formula = .ok e ∧ e.names ⊆ combatNames ++ known

theorem exists_accepted {cfg : Config} {r : Rules} (h : ofConfig cfg = .ok r) :
    ∃ known, Accepted cfg r known := by
  simp only [ofConfig, Fallible.bind_eq_ok] at h
  obtain ⟨known, hknown, ⟨⟩, hphysical, ⟨⟩, hmagic, ⟨⟩, hcritical, ⟨⟩, hturn, h⟩ := h
  cases h
  refine ⟨known, rfl, hknown, fun formula hformula => ?_⟩
  simp only [CombatFormulas.formulas, List.mem_cons, List.not_mem_nil, or_false] at hformula
  rcases hformula with rfl | rfl | rfl | rfl
  · exact exists_parse_of_checkFormula hphysical
  · exact exists_parse_of_checkFormula hmagic
  · exact exists_parse_of_checkFormula hcritical
  · exact exists_parse_of_checkFormula hturn

variable {cfg : Config} {r : Rules} {block : Block}

def Rules.Meets (r : Rules) (block : Block) (level : Quantity) (s : Expr) : Prop :=
  ∃ d b, Comes (block.insert "Level" level) r.derived d b ∧ Formula.Meets d.formula (.ofBlock b) s

theorem Accepted.exists_parse {d : Derived} {b : Block} (h : Accepted cfg r known)
    (hblock : ∀ s ∈ cfg.primary, s.id ∈ block.keys)
    (hcomes : Comes (block.insert "Level" level) r.derived d b) :
    ∃ e, parse d.formula = .ok e ∧ e.names ⊆ b.keys := by
  rw [h.derived] at hcomes
  refine hcomes.exists_parse h.checked fun n hn => Table.mem_keys_insert.2 ?_
  refine (List.mem_cons.1 hn).imp_right fun hn => ?_
  obtain ⟨s, hs, rfl⟩ := List.mem_map.1 hn
  exact hblock s hs

theorem Accepted.derivedStats_ne_malformed (h : Accepted cfg r known)
    (hblock : ∀ s ∈ cfg.primary, s.id ∈ block.keys) (fault : Fault) (position : Nat) :
    r.derivedStats block level ≠ .error (.malformed fault position) := by
  intro hfault
  rw [derivedStats, deriveFrom_eq_error (by simp)] at hfault
  obtain ⟨d, b, hcomes, hcompute⟩ := hfault
  obtain ⟨e, he, -⟩ := h.exists_parse hblock hcomes
  rw [compute_eq_malformed, he] at hcompute
  cases hcompute

theorem Accepted.derivedStats_eq_unknownVariable {n : String} (h : Accepted cfg r known)
    (hblock : ∀ s ∈ cfg.primary, s.id ∈ block.keys) :
    r.derivedStats block level = .error (.unknownVariable n) ↔
      '.' ∈ n.toList ∧ r.Meets block level (.name n) := by
  rw [derivedStats, deriveFrom_eq_error (by simp)]
  simp only [compute_eq_unknownVariable, Context.resolve_ofBlock_eq_unknown, Rules.Meets]
  constructor
  · rintro ⟨d, b, hcomes, hmeets, hpath | hmissing⟩
    · exact ⟨hpath, d, b, hcomes, hmeets⟩
    · obtain ⟨e, he, hnames⟩ := h.exists_parse hblock hcomes
      exact absurd (hnames (hmeets.mem_names he)) hmissing
  · rintro ⟨hpath, d, b, hcomes, hmeets⟩
    exact ⟨d, b, hcomes, hmeets, .inl hpath⟩

theorem derivedStats_eq_unknownFunction {f : String} :
    r.derivedStats block level = .error (.unknownFunction f) ↔
      Functions.standard.get? f = none ∧ ∃ args, r.Meets block level (.call f args) := by
  rw [derivedStats, deriveFrom_eq_error (by simp)]
  simp only [compute_eq_unknownFunction, Rules.Meets]
  constructor
  · rintro ⟨d, b, hcomes, hnone, args, hmeets⟩
    exact ⟨hnone, args, d, b, hcomes, hmeets⟩
  · rintro ⟨hnone, args, d, b, hcomes, hmeets⟩
    exact ⟨d, b, hcomes, hnone, args, hmeets⟩

theorem exists_rules_standard : ∃ r stats, ofConfig .standard = .ok r ∧
    (∀ s ∈ Config.standard.primary, s.id ∈ r.defaultBlock.keys) ∧
    r.completeStats r.defaultBlock 5 = .ok stats := by
  have hruns : (ofConfig .standard).toOption.map (fun r =>
      (Config.standard.primary.all fun s => r.defaultBlock.contains s.id,
        (r.completeStats r.defaultBlock 5).isOk)) = some (true, true) := by decide +kernel
  obtain ⟨r, hr, hboth⟩ := Fallible.exists_eq_ok_and hruns
  obtain ⟨hall, hok⟩ := Prod.mk.inj hboth
  obtain ⟨stats, hstats⟩ := Fallible.exists_eq_ok hok
  refine ⟨r, stats, hr, fun s hs => ?_, hstats⟩
  exact (Table.contains_iff _ _).1 (List.all_eq_true.1 hall s hs)

/-- With an accepted configuration and a number for each primary stat, the derived formulas are
well-formed, a variable is unknown only if it is a path of several parts, and a function only if it
is not in the table; each exactly where the computation comes to it. -/
theorem nameErrors_iff (h : ofConfig cfg = .ok r) (hblock : ∀ s ∈ cfg.primary, s.id ∈ block.keys)
    (level : Quantity) :
    (∀ fault position, r.derivedStats block level ≠ .error (.malformed fault position)) ∧
      (∀ n, r.derivedStats block level = .error (.unknownVariable n) ↔
        '.' ∈ n.toList ∧ r.Meets block level (.name n)) ∧
      ∀ f, r.derivedStats block level = .error (.unknownFunction f) ↔
        Functions.standard.get? f = none ∧ ∃ args, r.Meets block level (.call f args) := by
  obtain ⟨known, haccepted⟩ := exists_accepted h
  exact ⟨haccepted.derivedStats_ne_malformed hblock,
    fun n => haccepted.derivedStats_eq_unknownVariable hblock,
    fun f => derivedStats_eq_unknownFunction⟩

theorem nameErrors_iff_standard : ∃ r, ofConfig .standard = .ok r ∧
    (∀ s ∈ Config.standard.primary, s.id ∈ r.defaultBlock.keys) ∧
    (∀ fault position, r.derivedStats r.defaultBlock 5 ≠ .error (.malformed fault position)) ∧
      (∀ n, r.derivedStats r.defaultBlock 5 = .error (.unknownVariable n) ↔
        '.' ∈ n.toList ∧ r.Meets r.defaultBlock 5 (.name n)) ∧
      ∀ f, r.derivedStats r.defaultBlock 5 = .error (.unknownFunction f) ↔
        Functions.standard.get? f = none ∧ ∃ args, r.Meets r.defaultBlock 5 (.call f args) := by
  obtain ⟨r, -, hr, hblock, -⟩ := exists_rules_standard
  exact ⟨r, hr, hblock, nameErrors_iff hr hblock 5⟩

def careless (id formula : String) : Config where
  primary := [{ id, name := id }]
  derived := [{ id := "Power", name := "Power", formula }]
  combat := some ⟨"Level", "Level", "Level", "Level"⟩

/-- The check lets a function pass that there is not, and a declared name that is read as a path. -/
theorem exists_nameError_careless :
    (∃ r, ofConfig (careless "Strength" "roll(Strength)") = .ok r ∧
      r.derivedStats (Table.ofList [("Strength", 10)]) 1 = .error (.unknownFunction "roll")) ∧
    ∃ r, ofConfig (careless "body.strength" "body.strength * 2") = .ok r ∧
      r.derivedStats (Table.ofList [("body.strength", 10)]) 1 =
        .error (.unknownVariable "body.strength") := by
  have hfunction : (ofConfig (careless "Strength" "roll(Strength)")).toOption.map (fun r =>
      Fallible.failure? (r.derivedStats (Table.ofList [("Strength", 10)]) 1)) =
        some (some (.unknownFunction "roll")) := by decide +kernel
  have hpath : (ofConfig (careless "body.strength" "body.strength * 2")).toOption.map (fun r =>
      Fallible.failure? (r.derivedStats (Table.ofList [("body.strength", 10)]) 1)) =
        some (some (.unknownVariable "body.strength")) := by decide +kernel
  obtain ⟨r, hr, hfails⟩ := Fallible.exists_eq_ok_and hfunction
  obtain ⟨r', hr', hfails'⟩ := Fallible.exists_eq_ok_and hpath
  exact ⟨⟨r, hr, Fallible.eq_error_of_failure? hfails⟩, r', hr',
    Fallible.eq_error_of_failure? hfails'⟩

end Stat

end Skirmish

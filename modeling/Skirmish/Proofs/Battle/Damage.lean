import Skirmish.Battle.Damage
import Skirmish.Proofs.Number.Quantity

namespace Skirmish.Damage

variable {f : Formulas} {kind : Kind} {power : Quantity} {formula : String} {c : Stat.Block}

/-- The formula is not at fault and still has no value: nothing takes its place. -/
def Breaks (formula : String) (c : Stat.Block) : Prop :=
  ∃ cause, Formula.compute formula (.ofBlock c) = .error (.arithmetic cause)

def HasValue (formula : String) (c : Stat.Block) (x : Float) : Prop :=
  Formula.compute formula (.ofBlock c) = .ok x ∧ x.isFinite = true

/-- What the fixed rule needs: floats for the offense and for the power. -/
def FixedRuleFits (kind : Kind) (power : Quantity) (c : Stat.Block) : Prop :=
  (offense kind c).Fits ∧ power.Fits

theorem compute_eq_error {cause : ArithmeticError} :
    compute formula c = .error cause ↔
      Formula.compute formula (.ofBlock c) = .error (.arithmetic cause) := by
  rw [compute]
  split <;> simp_all

theorem compute_eq_some {x : Float} :
    compute formula c = .ok (some x) ↔ Formula.compute formula (.ofBlock c) = .ok x := by
  rw [compute]
  split <;> simp_all

def Valued (formula : String) (c : Stat.Block) : Prop := ∃ x, HasValue formula c x

/-- The fixed rule is a float product of the offense, a share and the power. -/
theorem fallback_eq (kind : Kind) (power : Quantity) (c : Stat.Block) :
    ∃ share : Float, fallback kind power c =
      (offense kind c).toFloat >>= fun x => power.toFloat >>= fun y =>
        .ok (if (x * share * y / 100).isFinite then x * share * y / 100 else 1) := by
  obtain ⟨full, hfull⟩ := Quantity.exists_add_hundred (q := protection kind c)
  obtain ⟨share, hshare⟩ := Quantity.exists_div_max (q := full)
  refine ⟨share, ?_⟩
  simp only [fallback, hfull, hshare, Fallible.ok_bind, Quantity.mul, Quantity.combine_real_right]
  cases (offense kind c).toFloat with
  | error cause => rfl
  | ok x =>
    simp only [Fallible.ok_bind, Quantity.combine_real_left]
    cases power.toFloat <;> rfl

theorem exists_fallback :
    (∃ x, fallback kind power c = .ok x) ↔ FixedRuleFits kind power c := by
  obtain ⟨share, hrule⟩ := fallback_eq kind power c
  simp only [hrule, Fallible.bind_eq_ok, FixedRuleFits, Quantity.Fits]
  constructor
  · rintro ⟨_, x, hx, y, hy, -⟩
    exact ⟨⟨x, hx⟩, y, hy⟩
  · rintro ⟨⟨x, hx⟩, y, hy⟩
    exact ⟨_, x, hx, y, hy, rfl⟩

theorem isFinite_of_fallback {x : Float} (h : fallback kind power c = .ok x) :
    x.isFinite = true := by
  obtain ⟨share, hrule⟩ := fallback_eq kind power c
  simp only [hrule, Fallible.bind_eq_ok] at h
  obtain ⟨y, -, z, -, h⟩ := h
  cases h
  split
  · assumption
  · decide +kernel

theorem rawDamage_of_hasValue {x : Float} (h : HasValue formula c x) :
    rawDamage formula kind power c = .ok x := by
  rw [rawDamage, compute_eq_some.2 h.1]
  exact if_pos h.2

theorem rawDamage_of_breaks (kind : Kind) (power : Quantity) (h : Breaks formula c) :
    ∃ cause, rawDamage formula kind power c = .error cause := by
  obtain ⟨cause, hcause⟩ := h
  exact ⟨cause, by rw [rawDamage, compute_eq_error.2 hcause]; rfl⟩

theorem rawDamage_of_not_hasValue (hbreaks : ¬Breaks formula c)
    (hvalue : ∀ x, ¬HasValue formula c x) :
    rawDamage formula kind power c = fallback kind power c := by
  rw [rawDamage]
  cases hcompute : compute formula c with
  | error cause => exact absurd ⟨cause, compute_eq_error.1 hcompute⟩ hbreaks
  | ok value =>
    cases value with
    | none => rfl
    | some x => exact if_neg fun hfinite => hvalue x ⟨compute_eq_some.1 hcompute, hfinite⟩

theorem exists_rawDamage :
    (∃ x, rawDamage formula kind power c = .ok x) ↔
      ¬Breaks formula c ∧ (Valued formula c ∨ FixedRuleFits kind power c) := by
  by_cases hbreaks : Breaks formula c
  · obtain ⟨cause, hcause⟩ := rawDamage_of_breaks kind power hbreaks
    simp [hcause, hbreaks]
  by_cases hvalue : Valued formula c
  · obtain ⟨x, hx⟩ := hvalue
    have hsome : Valued formula c := ⟨x, hx⟩
    simp [rawDamage_of_hasValue hx, hbreaks, hsome]
  · have hnone : ∀ x, ¬HasValue formula c x := fun x hx => hvalue ⟨x, hx⟩
    rw [rawDamage_of_not_hasValue hbreaks hnone, exists_fallback]
    simp [hbreaks, hvalue]

theorem isFinite_of_rawDamage {x : Float} (h : rawDamage formula kind power c = .ok x) :
    x.isFinite = true := by
  by_cases hbreaks : Breaks formula c
  · obtain ⟨cause, hcause⟩ := rawDamage_of_breaks kind power hbreaks
    rw [hcause] at h
    cases h
  by_cases hvalue : Valued formula c
  · obtain ⟨y, hy⟩ := hvalue
    rw [rawDamage_of_hasValue hy] at h
    cases h
    exact hy.2
  · rw [rawDamage_of_not_hasValue hbreaks fun x hx => hvalue ⟨x, hx⟩] at h
    exact isFinite_of_fallback h

def marked (c : Stat.Block) (critical : Bool) : Stat.Block :=
  c.insert "IsCritical" (if critical then 1 else 0)

/-- What an unprotected fighter would take. -/
def unprotected (kind : Kind) (power : Quantity) (c : Stat.Block) : Quantity.Result Float := do
  (← (offense kind c).mul power).div 100

def multiplied (critical : Bool) (c : Stat.Block) (plain : Float) : Quantity.Result Float :=
  if critical then (plain * ·) <$> criticalFactor c else pure plain

/-- Everything that a hit computes has a finite value; the fixed rule may stand in for the formula
and for nothing else. -/
structure Calculable (f : Formulas) (kind : Kind) (power : Quantity) (critical : Bool)
    (c : Stat.Block) : Prop where
  intact : ¬Breaks (f.forKind kind) c
  covered : Valued (f.forKind kind) c ∨ FixedRuleFits kind power c
  strong : critical = true → ∀ plain, rawDamage (f.forKind kind) kind power c = .ok plain →
    ∃ factor, criticalFactor c = .ok factor ∧ (plain * factor).isFinite = true
  mitigated : ∃ full, unprotected kind power c = .ok full ∧ full.isFinite = true

theorem resolve_eq {roll : Float} : resolve f kind power c roll = (do
    let critical ← isCritical f.critical c roll
    let c := marked c critical
    let plain ← rawDamage (f.forKind kind) kind power c
    let raw ← multiplied critical c plain
    let whole ← (Quantity.real raw).floor
    let full ← unprotected kind power c
    let amount ← (Quantity.real full).floor
    return ⟨max 1 whole, critical, whole, max 0 (amount - max 1 whole)⟩) := by
  rw [resolve]
  refine bind_congr fun critical => ?_
  refine bind_congr fun plain => ?_
  cases critical <;> simp [multiplied, unprotected, marked]

/-- A critical hit multiplies; the whole part exists where the product is finite. -/
theorem exists_multiplied {critical : Bool} {plain : Float} (hplain : plain.isFinite = true) :
    (∃ raw whole, multiplied critical c plain = .ok raw ∧
        (Quantity.real raw).floor = .ok whole) ↔
      (critical = true →
        ∃ factor, criticalFactor c = .ok factor ∧ (plain * factor).isFinite = true) := by
  cases critical with
  | false => simpa [multiplied] using Quantity.exists_floor.2 hplain
  | true =>
    cases hfactor : criticalFactor c with
    | error cause => simp [multiplied, hfactor]
    | ok factor => simpa [multiplied, hfactor] using Quantity.exists_floor

theorem exists_resolve {roll : Float} :
    (∃ hit, resolve f kind power c roll = .ok hit) ↔
      ∃ critical, isCritical f.critical c roll = .ok critical ∧
        Calculable f kind power critical (marked c critical) := by
  simp only [resolve_eq, Fallible.bind_eq_ok]
  constructor
  · rintro ⟨_, critical, hcritical, plain, hplain, raw, hraw, whole, hwhole, full, hfull, amount,
      hamount, -⟩
    obtain ⟨hintact, hcovered⟩ := exists_rawDamage.1 ⟨plain, hplain⟩
    refine ⟨critical, hcritical, hintact, hcovered, fun hhit plain' hplain' => ?_, full, hfull,
      Quantity.exists_floor.1 ⟨amount, hamount⟩⟩
    cases hplain.symm.trans hplain'
    exact (exists_multiplied (isFinite_of_rawDamage hplain)).1 ⟨raw, whole, hraw, hwhole⟩ hhit
  · rintro ⟨critical, hcritical, h⟩
    obtain ⟨plain, hplain⟩ := exists_rawDamage.2 ⟨h.intact, h.covered⟩
    obtain ⟨raw, whole, hraw, hwhole⟩ := (exists_multiplied (isFinite_of_rawDamage hplain)).2
      fun hhit => h.strong hhit plain hplain
    obtain ⟨full, hfull, hfinite⟩ := h.mitigated
    obtain ⟨amount, hamount⟩ := Quantity.exists_floor.2 hfinite
    exact ⟨_, critical, hcritical, plain, hplain, raw, hraw, whole, hwhole, full, hfull, amount,
      hamount, rfl⟩

theorem one_le_damage_of_resolve {roll : Float} {hit : Hit}
    (h : resolve f kind power c roll = .ok hit) : 1 ≤ hit.damage := by
  simp only [resolve_eq, Fallible.bind_eq_ok] at h
  obtain ⟨critical, -, plain, -, raw, -, whole, -, full, -, amount, -, h⟩ := h
  cases h
  exact Int.le_max_left 1 whole

def drawnContext (attacker defender : Fighter) (power : Quantity) (dice : Dice) : Stat.Block :=
  context attacker defender power (.real (dice.next * 2 - 1))
    (.real dice.afterDraw.afterDraw.next)

theorem calculate_run {attacker defender : Fighter} {dice : Dice} :
    (calculate f attacker defender kind power).run.run dice =
      (resolve f kind power (drawnContext attacker defender power dice)
          (dice.afterDraw.next * 100), dice.afterDraw.afterDraw.afterDraw) := by
  rw [calculate]
  rfl

section

variable {low high : Stat.Block}

/-- The value of the formula is not a number, or it takes the remainder of an infinity. -/
def Undefined (formula : String) (c : Stat.Block) : Prop :=
  Formula.compute formula (.ofBlock c) = .error (.arithmetic .undefined) ∨
    ∃ x, Formula.compute formula (.ofBlock c) = .ok x ∧ x.isNaN = true

def bounds (formula : String) (kind : Kind) (power : Quantity) (low high : Stat.Block) :
    Quantity.Result (Int × Int) := do
  match ← formulaBounds formula low high with
  | some r => return r
  | none => do
    let base ← fallback kind power low
    return (← atLeastOne (base * 0.9), ← atLeastOne (base * 1.1))

def criticalAverage (c : Stat.Block) (a b : Int) : Quantity.Result Float := do
  let average ← (Quantity.whole (a + b)).div 2
  let rate ← (orElse (c.getD "CritRate" 0) 5).div 100
  let factor ← criticalFactor c
  return average * (1 - rate) + average * factor * rate

theorem preview_eq {attacker defender : Fighter} : preview f attacker defender kind power = (do
    let low := context attacker defender power (-1 : Quantity) 0
    let p ← bounds (f.forKind kind) kind power low (context attacker defender power 1 0)
    let critical ← (Quantity.real (← criticalAverage low p.1 p.2)).floor
    return ⟨p.1, p.2, critical⟩) := by
  simp only [preview, bounds]
  cases formulaBounds (f.forKind kind) (context attacker defender power (-1) 0)
      (context attacker defender power 1 0) with
  | error cause => rfl
  | ok r =>
    cases r with
    | none => simp [criticalAverage]
    | some r => simp [criticalAverage]

theorem exists_atLeastOne {x : Float} : (∃ n, atLeastOne x = .ok n) ↔ x.isFinite = true := by
  rw [← Quantity.exists_floor]
  simp only [atLeastOne, Fallible.bind_eq_ok]
  constructor
  · rintro ⟨_, n, hn, -⟩
    exact ⟨n, hn⟩
  · rintro ⟨n, hn⟩
    exact ⟨_, n, hn, rfl⟩

theorem one_le_of_atLeastOne {x : Float} {n : Int} (h : atLeastOne x = .ok n) : 1 ≤ n := by
  obtain ⟨whole, -, h⟩ := Fallible.bind_eq_ok.1 h
  cases h
  exact Int.le_max_left 1 whole

def bound (formula : String) (c : Stat.Block) : Formula.Result Int := do
  Formula.arithmetic (atLeastOne (← Formula.compute formula (.ofBlock c)))

/-- Only what is undefined stays a failure. -/
def orNone {α : Type} : Formula.Result α → Quantity.Result (Option α)
  | .ok r => .ok (some r)
  | .error (.arithmetic .undefined) => .error .undefined
  | .error _ => .ok none

theorem orNone_error {α : Type} {e : Formula.Error} (h : e ≠ .arithmetic .undefined) :
    orNone (.error e : Formula.Result α) = .ok none := by
  rw [orNone]
  rintro rfl
  exact h rfl

theorem orNone_eq_some {α : Type} {r : Formula.Result α} {a : α} :
    orNone r = .ok (some a) ↔ r = .ok a := by
  rw [orNone.eq_def]
  split <;> simp

theorem formulaBounds_eq (formula : String) (low high : Stat.Block) :
    formulaBounds formula low high =
    orNone (do return (← bound formula low, ← bound formula high)) := by
  simp only [formulaBounds, bound, bind_assoc]
  split
  next r hr => rw [hr, orNone]
  next hr => rw [hr, orNone]
  next e hdefined hr => rw [hr, orNone_error fun h => hdefined h]

theorem exists_bound : (∃ n, bound formula c = .ok n) ↔ Valued formula c := by
  simp only [bound, Fallible.bind_eq_ok, Formula.arithmetic, Fallible.mapError_eq_ok, Valued,
    HasValue, ← exists_atLeastOne]
  constructor
  · rintro ⟨n, x, hx, hn⟩
    exact ⟨x, hx, n, hn⟩
  · rintro ⟨x, hx, n, hn⟩
    exact ⟨n, x, hx, hn⟩

theorem atLeastOne_eq_undefined {x : Float} :
    atLeastOne x = .error .undefined ↔ x.isNaN = true := by
  rw [← Quantity.floor_eq_undefined, atLeastOne]
  cases (Quantity.real x).floor <;> simp

theorem bound_eq_undefined :
    bound formula c = .error (.arithmetic .undefined) ↔ Undefined formula c := by
  rw [bound, Undefined]
  cases Formula.compute formula (.ofBlock c) with
  | error e => simp
  | ok x =>
    have hlift : Formula.arithmetic (atLeastOne x) = .error (.arithmetic .undefined) ↔
        atLeastOne x = .error .undefined := by
      rw [Formula.arithmetic]
      cases atLeastOne x <;> simp [Fallible.mapError_error]
    simp [hlift, atLeastOne_eq_undefined]

def FixedBounds (kind : Kind) (power : Quantity) (c : Stat.Block) : Prop :=
  ∃ base, fallback kind power c = .ok base ∧ (base * 0.9).isFinite = true ∧
    (base * 1.1).isFinite = true

theorem exists_bounds_of_none (h : formulaBounds formula low high = .ok none) :
    (∃ p, bounds formula kind power low high = .ok p) ↔ FixedBounds kind power low := by
  simp only [bounds, h, Fallible.ok_bind, Fallible.bind_eq_ok, Fallible.pure_eq, FixedBounds,
    ← exists_atLeastOne]
  constructor
  · rintro ⟨_, base, hbase, a, ha, b, hb, -⟩
    exact ⟨base, hbase, ⟨a, ha⟩, b, hb⟩
  · rintro ⟨base, hbase, ⟨a, ha⟩, b, hb⟩
    exact ⟨_, base, hbase, a, ha, b, hb, rfl⟩

/-- The bounds come from the formula or from the fixed rule, unless the formula is undefined. -/
theorem exists_bounds :
    (∃ p, bounds formula kind power low high = .ok p) ↔
      (¬Undefined formula low ∧ (Valued formula low → ¬Undefined formula high)) ∧
        (Valued formula low ∧ Valued formula high ∨ FixedBounds kind power low) := by
  have hbounds := formulaBounds_eq formula low high
  simp only [← bound_eq_undefined, ← exists_bound]
  -- the bound with the low variance is computed first: if it fails, the other one is not asked
  cases hlow : bound formula low with
  | error e =>
    rw [hlow, Fallible.error_bind] at hbounds
    by_cases hundefined : e = .arithmetic .undefined
    · rw [hundefined, orNone] at hbounds
      simp [bounds, hbounds, hundefined]
    · rw [orNone_error hundefined] at hbounds
      simp [exists_bounds_of_none hbounds, hundefined]
  | ok a =>
    rw [hlow, Fallible.ok_bind] at hbounds
    cases hhigh : bound formula high with
    | error e =>
      rw [hhigh, Fallible.error_bind] at hbounds
      by_cases hundefined : e = .arithmetic .undefined
      · rw [hundefined, orNone] at hbounds
        simp [bounds, hbounds, hundefined]
      · rw [orNone_error hundefined] at hbounds
        simp [exists_bounds_of_none hbounds, hundefined]
    | ok b =>
      rw [hhigh, Fallible.ok_bind, Fallible.pure_eq, orNone] at hbounds
      simp [bounds, hbounds]

theorem one_le_of_bound {n : Int} (h : bound formula c = .ok n) : 1 ≤ n := by
  obtain ⟨x, -, h⟩ := Fallible.bind_eq_ok.1 h
  exact one_le_of_atLeastOne (Fallible.mapError_eq_ok.1 h)

theorem one_le_of_bounds {p : Int × Int} (h : bounds formula kind power low high = .ok p) :
    1 ≤ p.1 ∧ 1 ≤ p.2 := by
  obtain ⟨r, hr, h⟩ := Fallible.bind_eq_ok.1 h
  cases r with
  | none =>
    simp only [Fallible.bind_eq_ok] at h
    obtain ⟨base, -, a, ha, b, hb, h⟩ := h
    cases h
    exact ⟨one_le_of_atLeastOne ha, one_le_of_atLeastOne hb⟩
  | some r =>
    cases h
    rw [formulaBounds_eq, orNone_eq_some] at hr
    simp only [Fallible.bind_eq_ok] at hr
    obtain ⟨a, ha, b, hb, hr⟩ := hr
    cases hr
    exact ⟨one_le_of_bound ha, one_le_of_bound hb⟩

/-- The numbers of a preview are finite; the fixed rule may stand in for a formula that is at fault
or too large. -/
structure Previewable (formula : String) (kind : Kind) (power : Quantity)
    (low high : Stat.Block) : Prop where
  defined : ¬Undefined formula low ∧ (Valued formula low → ¬Undefined formula high)
  covered : Valued formula low ∧ Valued formula high ∨ FixedBounds kind power low
  averaged : ∀ p, bounds formula kind power low high = .ok p →
    ∃ average, criticalAverage low p.1 p.2 = .ok average ∧ average.isFinite = true

end

variable {attacker defender : Fighter}

theorem exists_preview :
    (∃ p, preview f attacker defender kind power = .ok p) ↔
      Previewable (f.forKind kind) kind power (context attacker defender power (-1 : Quantity) 0)
        (context attacker defender power 1 0) := by
  simp only [preview_eq, Fallible.bind_eq_ok]
  constructor
  · rintro ⟨_, p, hp, average, haverage, critical, hcritical, -⟩
    obtain ⟨hdefined, hcovered⟩ := exists_bounds.1 ⟨p, hp⟩
    refine ⟨hdefined, hcovered, fun p' hp' => ?_⟩
    cases hp.symm.trans hp'
    exact ⟨average, haverage, Quantity.exists_floor.1 ⟨critical, hcritical⟩⟩
  · intro h
    obtain ⟨p, hp⟩ := exists_bounds.2 ⟨h.defined, h.covered⟩
    obtain ⟨average, haverage, hfinite⟩ := h.averaged p hp
    obtain ⟨critical, hcritical⟩ := Quantity.exists_floor.2 hfinite
    exact ⟨_, p, hp, average, haverage, critical, hcritical, rfl⟩

theorem one_le_of_preview {p : Preview} (h : preview f attacker defender kind power = .ok p) :
    1 ≤ p.low ∧ 1 ≤ p.high := by
  simp only [preview_eq, Fallible.bind_eq_ok] at h
  obtain ⟨r, hr, average, -, critical, -, h⟩ := h
  cases h
  exact one_le_of_bounds hr

/-- Whatever the numbers and formulas: a hit has a result exactly if all that it computes beyond
the formula is finite, likewise a preview, and no damage is below one. -/
theorem calculable_iff_and_previewable_iff (f : Formulas) (attacker defender : Fighter)
    (kind : Kind) (power : Quantity) (dice : Dice) :
    ((∃ hit, ((calculate f attacker defender kind power).run.run dice).1 = .ok hit) ↔
        ∃ critical,
          isCritical f.critical (drawnContext attacker defender power dice)
            (dice.afterDraw.next * 100) = .ok critical ∧
          Calculable f kind power critical
            (marked (drawnContext attacker defender power dice) critical)) ∧
      (∀ hit, ((calculate f attacker defender kind power).run.run dice).1 = .ok hit →
        1 ≤ hit.damage) ∧
      ((∃ p, preview f attacker defender kind power = .ok p) ↔
        Previewable (f.forKind kind) kind power
          (context attacker defender power (-1 : Quantity) 0)
          (context attacker defender power 1 0)) ∧
      ∀ p, preview f attacker defender kind power = .ok p → 1 ≤ p.low ∧ 1 ≤ p.high := by
  rw [calculate_run]
  exact ⟨exists_resolve, fun _ => one_le_damage_of_resolve, exists_preview,
    fun _ => one_le_of_preview⟩

def sample (id : String) (stats : Stat.Block) : Fighter where
  id := id
  name := id
  isPlayer := false
  baseStats := stats
  stats := stats
  hp := 100
  mp := 50
  maxHp := 100
  maxMp := 50

def mighty : Fighter := sample "mighty" (Table.ofList [("Attack", .real 1e300)])

/-- All numbers are finite and the fixed rule takes the place of the formula, but what an
unprotected fighter would take is infinite. -/
theorem not_calculable_mighty :
    (∀ e ∈ mighty.stats.entries, ∃ x, e.2 = .real x ∧ x.isFinite = true) ∧
      (1e300 : Float).isFinite = true ∧ (0 ≤ ({} : Dice).next ∧ ({} : Dice).next < 1) ∧
      ∀ hit, ((calculate .standard mighty (sample "humble" {}) .physical (.real 1e300)).run.run
        {}).1 ≠ .ok hit := by
  refine ⟨?_, by decide +kernel, by decide +kernel, ?_⟩
  · intro e he
    cases List.mem_singleton.1 he
    exact ⟨_, rfl, by decide +kernel⟩
  · have hfails : ((calculate .standard mighty (sample "humble" {}) .physical
        (.real 1e300)).run.run {}).1.isOk = false := by decide +kernel
    intro hit hhit
    rw [hhit] at hfails
    cases hfails

end Skirmish.Damage

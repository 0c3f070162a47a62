import Skirmish.Proofs.Modifier.Stack
import Skirmish.Proofs.Modifier.Totals

namespace Skirmish.Modifier

namespace Effect.Sums

variable {s t : Sums} {isFlat : Bool} {q : Quantity}

def sum (s : Sums) (isFlat : Bool) : Quantity := if isFlat then s.flat else s.percent

def put (s : Sums) (isFlat : Bool) (q : Quantity) : Sums :=
  if isFlat then { s with flat := q } else { s with percent := q }

theorem sum_put {isFlat' : Bool} :
    (s.put isFlat q).sum isFlat' = if isFlat = isFlat' then q else s.sum isFlat' := by
  cases isFlat <;> cases isFlat' <;> rfl

theorem eq_of_sum_eq (h : ∀ isFlat, s.sum isFlat = t.sum isFlat) : s = t := by
  have hflat : s.flat = t.flat := h true
  have hpercent : s.percent = t.percent := h false
  cases s
  cases t
  simp_all

theorem add_eq {e : Effect} : s.add e = (do
    let sum ← (s.sum e.mode.isFlat).add e.value
    return s.put e.mode.isFlat sum) := by
  rw [add]
  cases e.mode.isFlat <;> rfl

end Effect.Sums

namespace Stack

variable {s : Stack} {base stats : Stat.Block} {es : List (Effect × Int)}
  {sums result : Effect.Sums} {stat : String} {q r a b : Quantity} {x : Float}

/-- Sums of the same effects from an integer and from a float: they differ where there are none. -/
inductive Counterpart : Quantity → Quantity → Prop
  | same (q : Quantity) : Counterpart q q
  | nothing : Counterpart 0 (.real 0)

namespace Counterpart

theorem add_eq (h : Counterpart q r) (x : Float) :
    (Quantity.real x).add q = (Quantity.real x).add r := by
  cases h <;> rfl

theorem div_eq (h : Counterpart q r) : q.div 100 = r.div 100 := by
  cases h <;> rfl

theorem adjusted_eq (hflat : Counterpart q r) (hpercent : Counterpart a b) (x : Float) :
    adjusted (.real x) q a = adjusted (.real x) r b := by
  simp only [adjusted, raised, hflat.add_eq, hpercent.div_eq]

end Counterpart

/-- From the first float on, it makes no difference where a tally started. -/
theorem tally_cons_eq {e : Effect × Int} (h : ∃ x, e.1.value = .real x) :
    tally (.real 0) (e :: es) = tally 0 (e :: es) := by
  obtain ⟨x, hx⟩ := h
  have hvalue : e.1.value.mul (.whole e.2) =
      Quantity.floatOfInt e.2 >>= fun y => .ok (.real (x * y)) := by
    rw [hx]
    rfl
  rw [tally, tally, hvalue]
  cases Quantity.floatOfInt e.2 with
  | error cause => rfl
  | ok y => rfl

theorem exists_counterpart (hreal : ∀ e ∈ es, ∃ x, e.1.value = .real x) (h : tally 0 es = .ok q) :
    ∃ r, tally (.real 0) es = .ok r ∧ Counterpart q r := by
  cases es with
  | nil =>
      cases h
      exact ⟨.real 0, rfl, .nothing⟩
  | cons e es => exact ⟨q, by rw [tally_cons_eq (hreal e (by simp)), h], .same q⟩

theorem bonusSums_eq
    (h : ∀ isFlat, tally (sums.sum isFlat) (effectsOn stat isFlat es) = .ok (result.sum isFlat)) :
    bonusSums stat sums es = .ok result := by
  induction es generalizing sums with
  | nil => exact congrArg _ (Effect.Sums.eq_of_sum_eq fun isFlat => Except.ok.inj (h isFlat))
  | cons e es ih =>
      by_cases hstat : e.1.stat = stat
      · subst hstat
        have hown := h e.1.mode.isFlat
        rw [effectsOn_cons_self] at hown
        obtain ⟨value, hvalue, hown⟩ := Fallible.bind_eq_ok.1 hown
        obtain ⟨sum, hsum, hown⟩ := Fallible.bind_eq_ok.1 hown
        have hrest : bonusSums e.1.stat (sums.put e.1.mode.isFlat sum) es = .ok result := by
          refine ih fun isFlat => ?_
          rw [Effect.Sums.sum_put]
          by_cases hmode : e.1.mode.isFlat = isFlat
          · subst hmode
            rwa [if_pos rfl]
          · rw [if_neg hmode, ← h isFlat, effectsOn_cons_of_ne fun h => hmode h.2]
        rw [bonusSums, if_pos rfl, hvalue, Fallible.ok_bind, Effect.Sums.add_eq, hsum]
        exact hrest
      · rw [bonusSums, if_neg hstat]
        refine ih fun isFlat => ?_
        rw [← h isFlat, effectsOn_cons_of_ne fun h => hstat h.1]

theorem lookup_adjustAll {t : Totals} {es es' : List (String × Quantity)}
    (h : adjustAll t es = .ok es') (hstat : Table.lookup stat es = some q) :
    ∃ n, adjusted q (t.sum true stat) (t.sum false stat) = .ok n ∧
      Table.lookup stat es' = some (.whole n) := by
  induction es generalizing es' with
  | nil => cases hstat
  | cons e es ih =>
      obtain ⟨n, hn, h⟩ := Fallible.bind_eq_ok.1 h
      obtain ⟨rest, hrest, h⟩ := Fallible.bind_eq_ok.1 h
      cases h
      rw [Table.lookup] at hstat ⊢
      split at hstat
      next hkey =>
        subst hkey
        cases hstat
        exact ⟨n, hn, if_pos rfl⟩
      next hkey =>
        rw [if_neg hkey]
        exact ih hrest hstat

theorem applyTo_eq_ok (h : s.applyTo base = .ok stats) :
    ∃ t, total {} s.effects = .ok t ∧ ∀ stat q, base.get? stat = some q →
      ∃ n, adjusted q (t.sum true stat) (t.sum false stat) = .ok n ∧
        stats.get? stat = some (.whole n) := by
  obtain ⟨t, htotal, h⟩ := Fallible.bind_eq_ok.1 h
  obtain ⟨es, hes, h⟩ := Fallible.bind_eq_ok.1 h
  cases h
  refine ⟨t, htotal, fun stat q hstat => ?_⟩
  have hentries : (Table.ofList es).entries = es :=
    Table.entries_ofList (keys_adjustAll hes ▸ base.nodup)
  obtain ⟨n, hn, hlookup⟩ := lookup_adjustAll hes hstat
  exact ⟨n, hn, by rw [Table.get?, hentries, hlookup]⟩

/-- Where a block of floats can be adjusted by effects that are floats, it keeps its stats in their
order, and the bonus on each stat has a value and comes to the same number. -/
theorem bonus_of_applyTo (hs : ∀ h ∈ s.values, ∀ e ∈ h.definition.effects, ∃ x, e.value = .real x)
    (hbase : ∀ q ∈ base.values, ∃ x, q = .real x) (happly : s.applyTo base = .ok stats) :
    stats.keys = base.keys ∧ ∀ stat q, base.get? stat = some q →
      ∃ b, s.bonus stat q = .ok b ∧ stats.get? stat = some (.whole b.final) := by
  refine ⟨keys_applyTo happly, fun stat q hstat => ?_⟩
  obtain ⟨t, htotal, hstats⟩ := applyTo_eq_ok happly
  obtain ⟨n, hn, hget⟩ := hstats stat q hstat
  have hreal : ∀ isFlat, ∀ e ∈ effectsOn stat isFlat s.effects, ∃ x, e.1.value = .real x := by
    intro isFlat e he
    obtain ⟨h, hh, d, hd, rfl⟩ := by simpa [effects] using List.mem_of_mem_filter he
    exact hs h hh d hd
  obtain ⟨flat, hflat, hcounterpart⟩ :=
    exists_counterpart (hreal true) (tally_effectsOn_empty htotal)
  obtain ⟨percent, hpercent, hcounterpart'⟩ :=
    exists_counterpart (hreal false) (tally_effectsOn_empty htotal)
  obtain ⟨x, rfl⟩ := hbase q (Table.mem_values_of_get? hstat)
  rw [hcounterpart.adjusted_eq hcounterpart' x] at hn
  have hsums : bonusSums stat {} s.effects = .ok ⟨flat, percent⟩ := by
    refine bonusSums_eq fun isFlat => ?_
    cases isFlat with
    | true => exact hflat
    | false => exact hpercent
  refine ⟨⟨flat, percent, n⟩, ?_, hget⟩
  rw [bonus, hsums, Fallible.ok_bind, hn]
  rfl

def whetted : Stack :=
  let edge : Definition :=
    { id := "edge", name := "Edge", stackable := true
      effects := [⟨"Attack", .flat, .real 2.5⟩, ⟨"Luck", .flat, .real 1⟩,
        ⟨"Attack", .percent, .real 10⟩] }
  let curse : Definition :=
    { id := "curse", name := "Curse", effects := [⟨"Attack", .percent, .real (-5)⟩] }
  ((add {} edge "buff").add curse "debuff").add edge "buff"

def bearer : Stat.Block := .ofList [("Attack", .real 10.5), ("Speed", .real (-0.0))]

theorem bonus_of_applyTo_whetted :
    ∃ stats, whetted.applyTo bearer = .ok stats ∧ stats.keys = ["Attack", "Speed"] ∧
      (∃ b, whetted.bonus "Attack" (.real 10.5) = .ok b ∧
        stats.get? "Attack" = some (.whole b.final)) ∧
      ∃ b, whetted.bonus "Speed" (.real (-0.0)) = .ok b ∧
        stats.get? "Speed" = some (.whole b.final) := by
  obtain ⟨stats, hstats⟩ :=
    Fallible.exists_eq_ok (by decide +kernel : (whetted.applyTo bearer).isOk = true)
  have hvalues : bearer.values = [.real 10.5, .real (-0.0)] := rfl
  have heffects : whetted.values.map (fun h => h.definition.effects) =
    [[⟨"Attack", .flat, .real 2.5⟩, ⟨"Luck", .flat, .real 1⟩, ⟨"Attack", .percent, .real 10⟩],
      [⟨"Attack", .percent, .real (-5)⟩]] := rfl
  have hs : ∀ es ∈ whetted.values.map (fun h => h.definition.effects), ∀ e ∈ es,
      ∃ x, e.value = .real x := by
    simp [heffects]
  obtain ⟨hkeys, hbonus⟩ := bonus_of_applyTo (List.forall_mem_map.1 hs) (by simp [hvalues]) hstats
  exact ⟨stats, hstats, hkeys, hbonus "Attack" _ rfl, hbonus "Speed" _ rfl⟩

end Stack

end Skirmish.Modifier

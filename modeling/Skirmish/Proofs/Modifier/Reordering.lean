import Mathlib.Algebra.BigOperators.Group.List.Basic
import Mathlib.Algebra.Ring.Int.Defs
import Mathlib.Data.List.Perm.Basic
import Skirmish.Proofs.Modifier.Totals

namespace Skirmish.Modifier

/-- The same effects in any order, counting as often. -/
def Held.Alike (h k : Held) : Prop :=
  h.count = k.count ∧ h.definition.effects.Perm k.definition.effects

namespace Stack

variable {s t : Stack} {totals totals' : Totals} {es : List (Effect × Int)} {isFlat : Bool}
  {stat : String}

/-- The same modifiers under the same ids, whatever the order in which they came. -/
def Reordered (s t : Stack) : Prop := ∀ id, Option.Rel Held.Alike (s.get? id) (t.get? id)

def effectsOf (h : Held) : List (Effect × Int) := h.definition.effects.map fun e => (e, h.count)

theorem effects_eq_flatMap_keys (s : Stack) :
    s.effects = s.keys.flatMap fun id => ((s.get? id).map effectsOf).getD [] := by
  rw [effects, Table.values, Table.keys, List.flatMap_map, List.flatMap_map]
  refine List.flatMap_congr fun e he => ?_
  rw [Table.get?_of_mem he]
  rfl

theorem effectsOf_perm {h k : Held} (halike : h.Alike k) :
    (effectsOf h).Perm (effectsOf k) := by
  rw [effectsOf, effectsOf, halike.1]
  exact halike.2.map _

theorem Reordered.keys_perm (h : Reordered s t) : s.keys.Perm t.keys := by
  refine (List.perm_ext_iff_of_nodup s.nodup t.nodup).2 fun id => ?_
  show id ∈ s.keys ↔ id ∈ t.keys
  have hid := h id
  rw [← Table.exists_get?_iff, ← Table.exists_get?_iff]
  generalize s.get? id = held, t.get? id = held' at hid
  cases hid <;> simp

theorem Reordered.effects_perm (h : Reordered s t) : s.effects.Perm t.effects := by
  rw [effects_eq_flatMap_keys, effects_eq_flatMap_keys]
  refine h.keys_perm.flatMap fun id _ => ?_
  have hid := h id
  generalize s.get? id = held, t.get? id = held' at hid
  cases hid with
  | some halike => exact effectsOf_perm halike
  | none => exact .refl _

def worth (e : Effect × Int) : Int :=
  match e.1.value with
  | .whole n => n * e.2
  | .real _ => 0

theorem mul_eq_worth {e : Effect × Int} (h : ∃ n, e.1.value = .whole n) :
    e.1.value.mul (.whole e.2) = .ok (.whole (worth e)) := by
  obtain ⟨n, hn⟩ := h
  rw [worth, hn]
  rfl

theorem tally_whole (h : ∀ e ∈ es, ∃ n, e.1.value = .whole n) (m : Int) :
    tally (.whole m) es = .ok (.whole (m + (es.map worth).sum)) := by
  induction es generalizing m with
  | nil => simp [tally]
  | cons e es ih =>
      rw [List.forall_mem_cons] at h
      rw [tally, mul_eq_worth h.1, List.map_cons, List.sum_cons, ← add_assoc]
      exact ih h.2 (m + worth e)

def Totals.IsWhole (t : Totals) : Prop := ∀ isFlat stat, ∃ n, t.sum isFlat stat = .whole n

theorem Totals.isWhole_empty : Totals.IsWhole {} := by
  intro isFlat stat
  cases isFlat <;> exact ⟨0, rfl⟩

theorem Totals.IsWhole.add {e : Effect × Int} (ht : totals.IsWhole)
    (he : ∃ n, e.1.value = .whole n) : ∃ t, totals.add e.1 e.2 = .ok t ∧ t.IsWhole := by
  obtain ⟨n, hn⟩ := ht e.1.mode.isFlat e.1.stat
  refine ⟨totals.put e.1.mode.isFlat e.1.stat (.whole (n + worth e)), ?_, fun isFlat stat => ?_⟩
  · rw [Totals.add_eq, mul_eq_worth he, hn]
    rfl
  · rw [Totals.sum_put]
    split
    · exact ⟨_, rfl⟩
    · exact ht isFlat stat

theorem exists_total (ht : totals.IsWhole) (hes : ∀ e ∈ es, ∃ n, e.1.value = .whole n) :
    ∃ t, total totals es = .ok t := by
  induction es generalizing totals with
  | nil => exact ⟨totals, rfl⟩
  | cons e es ih =>
      rw [List.forall_mem_cons] at hes
      obtain ⟨between, hadd, hbetween⟩ := ht.add hes.1
      rw [total, hadd]
      exact ih hbetween hes.2

/-- Integer effects can always be added up, each stat by itself. -/
theorem exists_total_sum (hes : ∀ e ∈ es, ∃ n, e.1.value = .whole n) :
    ∃ t, total {} es = .ok t ∧ ∀ isFlat stat,
      t.sum isFlat stat = .whole ((effectsOn stat isFlat es).map worth).sum := by
  obtain ⟨t, ht⟩ := exists_total Totals.isWhole_empty hes
  refine ⟨t, ht, fun isFlat stat => ?_⟩
  have hwhole : ∀ e ∈ effectsOn stat isFlat es, ∃ n, e.1.value = .whole n :=
    fun e he => hes e (List.mem_of_mem_filter he)
  have htally := tally_whole hwhole 0
  rw [zero_add] at htally
  exact Except.ok.inj ((tally_effectsOn_empty ht).symm.trans htally)

theorem adjustAll_congr (h : ∀ isFlat stat, totals.sum isFlat stat = totals'.sum isFlat stat)
    (es : List (String × Quantity)) : adjustAll totals es = adjustAll totals' es := by
  induction es with
  | nil => rfl
  | cons e es ih =>
      have hflat : totals.flat.getD e.1 0 = totals'.flat.getD e.1 0 := h true e.1
      have hpercent : totals.percent.getD e.1 0 = totals'.percent.getD e.1 0 := h false e.1
      rw [adjustAll, adjustAll, hflat, hpercent, ih]

/-- Modifiers whose effects are integers adjust every block to the same block, or fail in the same
way, whatever the order of the modifiers and that of the effects in each of them. -/
theorem applyTo_reordered (h : Reordered s t)
    (hs : ∀ held ∈ s.values, ∀ e ∈ held.definition.effects, ∃ n, e.value = .whole n)
    (base : Stat.Block) : s.applyTo base = t.applyTo base := by
  have hperm := h.effects_perm
  have hwhole : ∀ e ∈ s.effects, ∃ n, e.1.value = .whole n := by
    intro e he
    obtain ⟨held, hheld, d, hd, rfl⟩ := by simpa [effects] using he
    exact hs held hheld d hd
  obtain ⟨totals, htotals, hsums⟩ := exists_total_sum hwhole
  obtain ⟨totals', htotals', hsums'⟩ :=
    exists_total_sum fun e he => hwhole e (hperm.mem_iff.2 he)
  have hsame : ∀ isFlat stat, totals.sum isFlat stat = totals'.sum isFlat stat := by
    intro isFlat stat
    have heffects : (effectsOn stat isFlat s.effects).Perm (effectsOn stat isFlat t.effects) :=
      hperm.filter _
    rw [hsums, hsums', (heffects.map worth).sum_eq]
  rw [applyTo, applyTo, htotals, htotals', Fallible.ok_bind, Fallible.ok_bind,
    adjustAll_congr hsame]

def notches : List Effect :=
  [⟨"Attack", .flat, .whole 5⟩, ⟨"Luck", .flat, .whole 1⟩, ⟨"Attack", .percent, .whole 10⟩]

def notched (effects : List Effect) : Definition :=
  { id := "edge", name := "Edge", effects, stackable := true }

def rust : Definition :=
  { id := "rust", name := "Rust", effects := [⟨"Attack", .percent, .whole (-5)⟩] }

def rusted : Stack :=
  ((add {} (notched notches) "buff").add (notched notches) "buff").add rust "debuff"

def renotched : Stack :=
  ((add {} rust "debuff").add (notched notches.reverse) "buff").add (notched notches.reverse) "item"

theorem reordered_blades : Reordered rusted renotched := by
  intro id
  by_cases hedge : id = "edge"
  · subst hedge
    exact .some ⟨rfl, (List.reverse_perm notches).symm⟩
  · by_cases hrust : id = "rust"
    · subst hrust
      exact .some ⟨rfl, .refl _⟩
    · have hkeys : rusted.keys = ["edge", "rust"] ∧ renotched.keys = ["rust", "edge"] := ⟨rfl, rfl⟩
      rw [Table.get?_of_notMem (by simp [hkeys, hedge, hrust]),
        Table.get?_of_notMem (by simp [hkeys, hedge, hrust])]
      exact .none

theorem applyTo_reordered_blades :
    Reordered rusted renotched ∧
      rusted.applyTo (.ofList [("Attack", .real 10.5), ("Speed", 7)]) =
        renotched.applyTo (.ofList [("Attack", .real 10.5), ("Speed", 7)]) := by
  have heffects : rusted.values.map (fun h => h.definition.effects) = [notches, rust.effects] := rfl
  have hs : ∀ es ∈ rusted.values.map (fun h => h.definition.effects), ∀ e ∈ es,
      ∃ n, e.value = .whole n := by
    simp [heffects, notches, rust]
  exact ⟨reordered_blades, applyTo_reordered reordered_blades (List.forall_mem_map.1 hs) _⟩

end Stack

end Skirmish.Modifier

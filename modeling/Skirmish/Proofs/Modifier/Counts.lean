import Mathlib.Data.List.Induction
import Skirmish.Proofs.Modifier.Automaton

namespace Skirmish.Modifier

/-- An addition to a modifier held already, by a definition that allows no stack at all. -/
def Operation.Exhausts (s : Stack) : Operation → Prop
  | .add d _ => d.id ∈ s.keys ∧ d.stackable ∧ ∃ most ∈ d.maxStacks, most ≤ 0
  | _ => False

namespace Stack

/-- Every modifier held has a stack, so that its effects count. -/
def Counted (s : Stack) : Prop := ∀ h ∈ s.values, 1 ≤ h.count

theorem counted_iff_entries {s : Stack} : s.Counted ↔ ∀ e ∈ s.entries, 1 ≤ e.2.count :=
  List.forall_mem_map

theorem one_le_count_again {h : Held} {d : Definition} (hh : 1 ≤ h.count)
    (hd : d.stackable → ∀ most ∈ d.maxStacks, 1 ≤ most) : 1 ≤ (h.again d).count := by
  rw [Held.again]
  split
  next hstackable =>
    cases hmost : d.maxStacks with
    | none => simp only [Held.limited]; omega
    | some most =>
        have hone := hd hstackable most hmost
        simp only [Held.limited]
        omega
  next => exact hh

/-- Only an addition under a maximum below one takes the last stack and leaves the modifier. -/
theorem count_of_entryAfter {s : Stack} (hs : s.Counted) {o : Operation} (ho : ¬ o.Exhausts s)
    {id : String} {h : Held} (hconcerns : o.concerns id)
    (hafter : entryAfter (s.get? id) o = some h) : 1 ≤ h.count := by
  cases hentry : s.get? id with
  | none =>
      rw [hentry] at hafter
      cases o with
      | add d source =>
          cases hafter
          exact Int.le_refl 1
      | remove | removeStack | tick | clear | clearSource => cases hafter
  | some held =>
      have hheld : 1 ≤ held.count := hs held (Table.mem_values_of_get? hentry)
      rw [hentry] at hafter
      cases o with
      | add d source =>
          obtain rfl : d.id = id := by simpa [Operation.concerns] using hconcerns
          have hmem : d.id ∈ s.keys := Table.exists_get?_iff.1 ⟨held, hentry⟩
          rw [← again_eq_entryAfter] at hafter
          cases hafter
          exact one_le_count_again hheld fun hstackable most hmost => by
            by_contra hlow
            exact ho ⟨hmem, hstackable, most, hmost, Int.not_lt.1 hlow⟩
      | tick | removeStack | clearSource => simp only [entryAfter] at hafter; grind
      | remove | clear => cases hafter

theorem Counted.operate {s : Stack} (h : s.Counted) {o : Operation} (ho : ¬ o.Exhausts s) :
    (s.operate o).Counted := by
  rw [counted_iff_entries] at h ⊢
  refine forall_entries_operate (p := fun _ held => 1 ≤ held.count) h ?_
  intro id held
  exact count_of_entryAfter (counted_iff_entries.2 h) ho

theorem not_counted_of_exhausts {s : Stack} {o : Operation} (h : o.Exhausts s) :
    ¬ (s.operate o).Counted := by
  cases o with
  | add d source =>
      obtain ⟨hmem, hstackable, most, hmost, hlow⟩ := h
      obtain ⟨held, hheld⟩ := Table.exists_get?_iff.2 hmem
      intro hcounted
      have hagain : (s.operate (.add d source)).get? d.id = some (held.again d) := by
        rw [operate, get?_add, if_pos rfl, hheld]
        rfl
      have hcount : 1 ≤ (held.again d).count := hcounted _ (Table.mem_values_of_get? hagain)
      have hleast : (held.again d).count = min (held.count + 1) most := by
        rw [Held.again, if_pos hstackable, Option.mem_def.1 hmost]
        rfl
      omega
  | remove | removeStack | tick | clear | clearSource => cases h

theorem operateAll_append_singleton (s : Stack) (os : List Operation) (o : Operation) :
    s.operateAll (os ++ [o]) = (s.operateAll os).operate o :=
  List.foldl_concat ..

/-- All that is held counts at every moment, if and only if no addition is limited to less than one
stack while its modifier is held. -/
theorem counted_iff_not_exhausts (os : List Operation) :
    (∀ front, front <+: os → (operateAll {} front).Counted) ↔
      ∀ front o, front ++ [o] <+: os → ¬ o.Exhausts (operateAll {} front) := by
  constructor
  · intro h front o hfront hexhausts
    have hcounted := h _ hfront
    rw [operateAll_append_singleton] at hcounted
    exact not_counted_of_exhausts hexhausts hcounted
  · intro h front hfront
    induction front using List.reverseRecOn with
    | nil => exact List.forall_mem_nil _
    | append_singleton front o ih =>
        rw [operateAll_append_singleton]
        exact (ih ((List.prefix_append front [o]).trans hfront)).operate (h front o hfront)

def hollow : Definition where
  id := "rage"
  name := "Rage"
  effects := [⟨"Attack", .flat, .whole 5⟩]
  stackable := true
  maxStacks := some 0

theorem not_counted_hollow :
    ¬ (operateAll {} [.add hollow "buff", .add hollow "buff"]).Counted := by
  intro h
  have hcounts : ∀ n ∈ [(0 : Int)], 1 ≤ n := List.forall_mem_map.2 h
  exact absurd (hcounts 0 (List.mem_singleton_self 0)) (by decide)

end Stack

end Skirmish.Modifier

import Skirmish.Proofs.Battle.Enrollment

namespace Skirmish.Battle

variable {r : Roster} {id found : String}

theorem ne_numbered (id : String) (n : Nat) : id ≠ numbered id n := by
  intro h
  have hlength := congrArg (fun s : String => s.toList.length) h
  simp [numbered] at hlength

/-- The ids that are tried, one after the other. -/
def form (id : String) : Nat → String
  | 0 => id
  | n + 1 => numbered id (n + 1)

theorem form_injective (id : String) : Function.Injective (form id) := by
  intro m n h
  cases m with
  | zero =>
    cases n with
    | zero => rfl
    | succ n => exact absurd h (ne_numbered id (n + 1))
  | succ m =>
    cases n with
    | zero => exact absurd h.symm (ne_numbered id (m + 1))
    | succ n => exact (numbered_injective h).2

/-- There are more forms of an id than fighters, so one of them is free. -/
theorem exists_free_form (r : Roster) (id : String) : ∃ k, k ≤ r.size ∧ form id k ∉ r.keys := by
  by_contra! hnone
  have hsub : (List.range (r.size + 1)).map (form id) ⊆ r.keys := by
    intro x hx
    obtain ⟨k, hk, rfl⟩ := List.mem_map.1 hx
    exact hnone k (Nat.le_of_lt_succ (List.mem_range.1 hk))
  have hnodup : ((List.range (r.size + 1)).map (form id)).Nodup :=
    List.nodup_range.map (form_injective id)
  have hlength := (List.subperm_of_subset hnodup hsub).length_le
  rw [List.length_map, List.length_range, Table.keys, List.length_map] at hlength
  exact Nat.not_succ_le_self _ hlength

theorem freshId_eq (r : Roster) (id : String) : freshId r id =
    (((List.range (r.size + 1)).map (form id)).find? fun x => !r.contains x).getD id := by
  rw [freshId, List.range_succ_eq_map, List.map_cons, List.map_map]
  rfl

theorem freshId_eq_form (r : Roster) (id : String) : ∃ k, k ≤ r.size ∧ freshId r id = form id k ∧
    form id k ∉ r.keys ∧ ∀ j < k, form id j ∈ r.keys := by
  classical
  have hex := exists_free_form r id
  obtain ⟨hsize, hfree⟩ := Nat.find_spec hex
  have htaken : ∀ j < Nat.find hex, form id j ∈ r.keys := by
    intro j hj
    by_contra hkey
    exact Nat.find_min hex hj ⟨Nat.le_of_lt (Nat.lt_of_lt_of_le hj hsize), hkey⟩
  have hfind : (List.range (r.size + 1)).find? ((fun x => !r.contains x) ∘ form id) =
      some (Nat.find hex) := by
    rw [List.find?_range_eq_some]
    refine ⟨by simpa [Table.contains] using hfree,
      List.mem_range.2 (Nat.lt_succ_of_le hsize), fun j hj => ?_⟩
    simpa [Table.contains] using htaken j hj
  refine ⟨Nat.find hex, hsize, ?_, hfree, htaken⟩
  rw [freshId_eq, List.find?_map, hfind]
  rfl

theorem freshId_notMem (r : Roster) (id : String) : freshId r id ∉ r.keys := by
  obtain ⟨k, -, heq, hfree, -⟩ := freshId_eq_form r id
  exact heq ▸ hfree

/-- The search from a form on, with the number of the next one: it ends at the first form that no
fighter has. -/
inductive Seeks (r : Roster) (id : String) : String → Nat → String → Prop
  | free {x : String} {n : Nat} (h : x ∉ r.keys) : Seeks r id x n x
  | taken {x found : String} {n : Nat} (h : x ∈ r.keys)
      (hnext : Seeks r id (numbered id n) (n + 1) found) : Seeks r id x n found

theorem seeks_freshId (r : Roster) (id : String) : Seeks r id id 1 (freshId r id) := by
  obtain ⟨k, -, heq, hfree, htaken⟩ := freshId_eq_form r id
  have hseeks : ∀ left j, j + left = k → Seeks r id (form id j) (j + 1) (form id k) := by
    intro left
    induction left with
    | zero =>
        rintro j rfl
        exact .free hfree
    | succ left ih =>
        intro j hj
        exact .taken (htaken j (by omega)) (ih (j + 1) (by omega))
  exact heq ▸ hseeks k 0 (Nat.zero_add k)

/-- The id is free: the declared one or, if a fighter has that, the least of its numbers. -/
def Chosen (r : Roster) (declared id : String) : Prop :=
  id ∉ r.keys ∧ (id = declared ∨ declared ∈ r.keys ∧
    ∃ n, 1 ≤ n ∧ id = numbered declared n ∧ ∀ m, 1 ≤ m → m < n → numbered declared m ∈ r.keys)

theorem chosen_freshId (r : Roster) (id : String) : Chosen r id (freshId r id) := by
  refine ⟨freshId_notMem r id, ?_⟩
  obtain ⟨k, -, heq, -, htaken⟩ := freshId_eq_form r id
  rw [heq]
  cases k with
  | zero => exact .inl rfl
  | succ n =>
    refine .inr ⟨htaken 0 (Nat.succ_pos n), n + 1, Nat.succ_pos n, rfl, fun m hm hless => ?_⟩
    obtain ⟨m, rfl⟩ := Nat.exists_eq_succ_of_ne_zero (Nat.ne_of_gt hm)
    exact htaken (m + 1) hless

end Skirmish.Battle

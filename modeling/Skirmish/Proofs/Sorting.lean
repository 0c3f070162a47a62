import Skirmish.Sorting

namespace Skirmish.Sorting

variable {α : Type} {before related : α → α → Bool}

theorem stretch_append (x : α) (xs : List α) :
    (stretch related x xs).1 ++ (stretch related x xs).2 = x :: xs := by
  induction xs generalizing x with
  | nil => rfl
  | cons y ys ih =>
      rw [stretch]
      split
      · exact congrArg (x :: ·) (ih y)
      · rfl

theorem firstRun_perm (xs : List α) :
    ((firstRun before xs).1 ++ (firstRun before xs).2).Perm xs := by
  match xs with
  | [] => exact .refl _
  | [x] => exact .refl _
  | x :: y :: ys =>
      rw [firstRun]
      split
      · refine ((List.reverse_perm _).append_right _).trans ?_
        rw [stretch_append]
      · rw [stretch_append]

theorem place_perm (x : α) (xs : List α) : (place before x xs).Perm (x :: xs) := by
  fun_induction place before x xs with
  | case1 xs hnone =>
      rw [List.length_eq_zero_iff.1 hnone]
  | case2 xs _ _ ih =>
      refine (ih.append_right _).trans ?_
      rw [List.cons_append, List.take_append_drop]
  | case3 xs _ _ ih =>
      refine (ih.append_left _).trans (List.perm_middle.trans ?_)
      rw [List.take_append_drop]

theorem sorted_perm (xs : List α) : (sorted before xs).Perm xs := by
  have hplaced : ∀ rest run : List α,
      (rest.foldl (fun run x => place before x run) run).Perm (run ++ rest) := by
    intro rest
    induction rest with
    | nil => exact fun run => by simp
    | cons x rest ih =>
        intro run
        refine (ih (place before x run)).trans ?_
        exact ((place_perm x run).append_right rest).trans List.perm_middle.symm
  exact (hplaced _ _).trans (firstRun_perm xs)

theorem sorted_eq_nil {xs : List α} (h : sorted before xs = []) : xs = [] := by
  have hperm : (sorted before xs).Perm xs := sorted_perm xs
  rw [h] at hperm
  exact hperm.nil_eq.symm

theorem mem_of_sorted_eq_cons {x : α} {xs rest : List α} (h : sorted before xs = x :: rest) :
    x ∈ xs := by
  have hmem : x ∈ sorted before xs := by simp [h]
  exact (sorted_perm xs).mem_iff.1 hmem

end Skirmish.Sorting

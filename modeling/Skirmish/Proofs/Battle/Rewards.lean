import Mathlib.Algebra.Ring.Int.Defs
import Skirmish.Battle.Ending
import Skirmish.Proofs.Chance
import Skirmish.Proofs.Table

namespace Skirmish.Battle

/-- The drops whose percentage, drawn for each of them, lies below their chance. -/
def won (drops : List Drop) (draws : List Float) : List Drop :=
  ((drops.zip draws).filter fun x => (Quantity.real (x.2 * 100)).lt x.1.chance).map Prod.fst

def countOf (drops : List Drop) (itemId : String) : Int :=
  ((drops.filter fun d => d.itemId = itemId).map Drop.count).sum

/-- The items of the drops, in the order in which they come first, each with all there is of it. -/
def gathered (drops : List Drop) : List Found :=
  (drops.map Drop.itemId).eraseDups.map fun id => ⟨id, countOf drops id⟩

theorem countOf_append (drops : List Drop) (d : Drop) (id : String) :
    countOf (drops ++ [d]) id = countOf drops id + if d.itemId = id then d.count else 0 := by
  rw [countOf, countOf, List.filter_append, List.map_append, List.sum_append]
  by_cases h : d.itemId = id <;> simp [h]

theorem countOf_of_notMem {drops : List Drop} {id : String} (h : id ∉ drops.map Drop.itemId) :
    countOf drops id = 0 := by
  have hnone : drops.filter (fun d => d.itemId = id) = [] := by
    rw [List.filter_eq_nil_iff]
    intro d hd hsame
    obtain rfl : d.itemId = id := by simpa using hsame
    exact h (List.mem_map_of_mem hd)
  rw [countOf, hnone]
  rfl

theorem addFound_of_notMem {ids : List String} {count : String → Int} {id : String} {n : Int}
    (h : id ∉ ids) :
    addFound (ids.map fun x => ⟨x, count x⟩) id n =
      (ids.map fun x => ⟨x, count x⟩) ++ [⟨id, n⟩] := by
  induction ids with
  | nil => rfl
  | cons x ids ih =>
    rw [List.mem_cons, not_or] at h
    rw [List.map_cons, addFound, if_neg (Ne.symm h.1), ih h.2]
    rfl

theorem addFound_of_mem {ids : List String} {count : String → Int} {id : String} {n : Int}
    (hnodup : ids.Nodup) (h : id ∈ ids) :
    addFound (ids.map fun x => ⟨x, count x⟩) id n =
      ids.map fun x => ⟨x, count x + if id = x then n else 0⟩ := by
  induction ids with
  | nil => cases h
  | cons x ids ih =>
    rw [List.nodup_cons] at hnodup
    rw [List.map_cons, List.map_cons, addFound]
    by_cases hx : x = id
    · subst hx
      have hrest : ∀ y ∈ ids, (⟨y, count y⟩ : Found) = ⟨y, count y + if x = y then n else 0⟩ := by
        intro y hy
        have hne : x ≠ y := by
          rintro rfl
          exact hnodup.1 hy
        rw [if_neg hne, Int.add_zero]
      rw [if_pos rfl, if_pos rfl, List.map_congr_left hrest]
    · have hmem : id ∈ ids := (List.mem_cons.1 h).resolve_left (Ne.symm hx)
      rw [if_neg hx, if_neg (Ne.symm hx), Int.add_zero, ih hnodup.2 hmem]

theorem addFound_gathered (drops : List Drop) (d : Drop) :
    addFound (gathered drops) d.itemId d.count = gathered (drops ++ [d]) := by
  rw [gathered, gathered, List.map_append, List.map_singleton, eraseDups_concat]
  simp only [countOf_append]
  split
  next hmem => exact addFound_of_mem (nodup_eraseDups _) (List.mem_eraseDups.2 hmem)
  next hnew =>
    rw [addFound_of_notMem (mt List.mem_eraseDups.1 hnew), List.map_append]
    congr 1
    · refine List.map_congr_left fun x hx => ?_
      have hne : d.itemId ≠ x := by
        rintro rfl
        exact hnew (List.mem_eraseDups.1 hx)
      rw [if_neg hne, Int.add_zero]
    · rw [List.map_singleton, countOf_of_notMem hnew, if_pos rfl, Int.zero_add]

theorem drawDrops_run (found drops : List Drop) (dice : Dice) :
    (drawDrops (gathered found) drops).run.run dice =
      (.ok (gathered (found ++ won drops (dice.upcoming drops.length))),
        dice.after drops.length) := by
  induction drops generalizing found dice with
  | nil =>
    have hnone : won [] (dice.upcoming ([] : List Drop).length) = [] := rfl
    rw [hnone, List.append_nil]
    rfl
  | cons d drops ih =>
    have hjudge : (drawDrops (gathered found) (d :: drops)).run.run dice =
        (drawDrops (if (Quantity.real (dice.next * 100)).lt d.chance
          then addFound (gathered found) d.itemId d.count else gathered found) drops).run.run
            dice.afterDraw := rfl
    rw [hjudge, List.length_cons, Dice.upcoming, Dice.after]
    by_cases hwon : (Quantity.real (dice.next * 100)).lt d.chance = true
    · have hcons : won (d :: drops) (dice.next :: dice.afterDraw.upcoming drops.length) =
          d :: won drops (dice.afterDraw.upcoming drops.length) := by
        simp [won, hwon]
      rw [if_pos hwon, addFound_gathered, ih, hcons, List.append_assoc, List.singleton_append]
    · have hcons : won (d :: drops) (dice.next :: dice.afterDraw.upcoming drops.length) =
          won drops (dice.afterDraw.upcoming drops.length) := by
        simp [won, hwon]
      rw [if_neg hwon, ih, hcons]

theorem rewards_run (enemies : List Enemy) (dice : Dice) :
    (rewards enemies).run.run dice =
      (.ok { exp := (enemies.map Enemy.exp).sum
             gold := (enemies.map Enemy.gold).sum
             items := gathered (won (enemies.flatMap Enemy.drops)
               (dice.upcoming (enemies.flatMap Enemy.drops).length)) },
        dice.after (enemies.flatMap Enemy.drops).length) := by
  have hdraw : (drawDrops [] (enemies.flatMap Enemy.drops)).run.run dice = _ :=
    drawDrops_run [] (enemies.flatMap Enemy.drops) dice
  rw [rewards, ExceptT.run_bind, StateT.run_bind, hdraw, List.sum_eq_foldl, List.sum_eq_foldl]
  rfl

end Skirmish.Battle

import Mathlib.Algebra.BigOperators.Group.List.Basic
import Mathlib.Algebra.Ring.Int.Defs
import Skirmish.Battle.Muster
import Skirmish.Proofs.Number.Limit

namespace Skirmish

namespace Quantity

theorem fits_whole {n : Int} : (whole n).Fits ↔ n.natAbs < Binary.limit := by
  rw [Fits, toFloat, ← Nat.not_le]
  cases h : floatOfInt n with
  | ok x =>
    refine iff_of_true ⟨x, rfl⟩ fun hlarge => ?_
    cases h.symm.trans (floatOfInt_eq_error.2 ⟨rfl, hlarge⟩)
  | error cause =>
    refine iff_of_false ?_ (not_not.2 (floatOfInt_eq_error.1 h).2)
    rintro ⟨x, hx⟩
    cases hx

theorem fits_real (x : Float) : (real x).Fits := ⟨x, rfl⟩

theorem add_real_iff {x : Float} {q s : Quantity} :
    (real x).add q = .ok s ↔ ∃ y, q.toFloat = .ok y ∧ s = real (x + y) := by
  rw [add, combine_real_left, Fallible.bind_eq_ok]
  simp only [Except.ok.injEq, eq_comm]

theorem div_whole_iff {m : Int} {n : Nat} (hn : 0 < n) :
    (∃ x, div (whole m) (whole n) = .ok x) ↔ m.natAbs < Binary.limit * n := by
  have hinf : (Binary.ofRatio m.natAbs n).isInf = true ↔ Binary.limit * n ≤ m.natAbs :=
    Binary.isInf_ofRatio hn
  rw [← Nat.not_le, ← hinf]
  simp only [div, Int.natAbs_natCast]
  cases (Binary.ofRatio m.natAbs n).isInf <;> simp

theorem div_real_iff {x : Float} {r : Quantity} : (∃ y, (real x).div r = .ok y) ↔ r.Fits := by
  show (∃ y, (r.toFloat >>= fun z => .ok (x / z)) = .ok y) ↔ ∃ z, r.toFloat = .ok z
  cases r.toFloat with
  | error cause => simp
  | ok z => exact iff_of_true ⟨_, rfl⟩ ⟨z, rfl⟩

end Quantity

namespace Battle

open Quantity

variable {qs : List Quantity} {ns : List Int} {x : Float}

/-- The quantities have a mean: what floats must hold is not too large for them. -/
inductive Averages : List Quantity → Prop
  | none : Averages []
  | whole {ns : List Int} (h : ns.sum.natAbs < Binary.limit * ns.length) :
      Averages (ns.map .whole)
  | mixed {ns : List Int} {x : Float} {qs : List Quantity} (hsum : ns.sum.natAbs < Binary.limit)
      (hrest : ∀ n, .whole n ∈ qs → n.natAbs < Binary.limit)
      (hlength : ns.length + 1 + qs.length < Binary.limit) :
      Averages (ns.map .whole ++ .real x :: qs)

theorem exists_leading (qs : List Quantity) :
    (∃ ns : List Int, qs = ns.map .whole) ∨
      ∃ (ns : List Int) (x : Float) (rest : List Quantity),
        qs = ns.map .whole ++ .real x :: rest := by
  induction qs with
  | nil => exact .inl ⟨[], rfl⟩
  | cons q qs ih =>
      cases q with
      | real x => exact .inr ⟨[], x, qs, rfl⟩
      | whole n =>
        rcases ih with ⟨ns, rfl⟩ | ⟨ns, x, rest, rfl⟩
        · exact .inl ⟨n :: ns, rfl⟩
        · exact .inr ⟨n :: ns, x, rest, rfl⟩

theorem sum_append (total : Quantity) (qs rs : List Quantity) :
    sum total (qs ++ rs) = sum total qs >>= fun t => sum t rs := by
  induction qs generalizing total with
  | nil => rfl
  | cons q qs ih =>
      rw [List.cons_append, sum, sum, bind_assoc]
      exact bind_congr fun t => ih t

theorem sum_whole (total : Int) (ns : List Int) :
    sum (.whole total) (ns.map .whole) = .ok (.whole (total + ns.sum)) := by
  induction ns generalizing total with
  | nil => rw [List.map_nil, sum, List.sum_nil, Int.add_zero]
  | cons n ns ih =>
      rw [List.map_cons, sum]
      show sum (.whole (total + n)) (ns.map .whole) = _
      rw [ih, List.sum_cons, Int.add_assoc]

theorem sum_integers (ns : List Int) : sum 0 (ns.map .whole) = .ok (.whole ns.sum) := by
  rw [← Int.zero_add ns.sum]
  exact sum_whole 0 ns

theorem exists_sum_real (x : Float) (h : ∀ q ∈ qs, q.Fits) :
    ∃ y, sum (.real x) qs = .ok (.real y) := by
  induction qs generalizing x with
  | nil => exact ⟨x, rfl⟩
  | cons q qs ih =>
      obtain ⟨y, hy⟩ := h q (.head _)
      rw [sum, add_real_iff.2 ⟨y, hy, rfl⟩]
      exact ih (x + y) fun r hr => h r (.tail _ hr)

/-- A sum that begins with a float is one, and all that is added to it fits one. -/
theorem of_sum_real {t : Quantity} (h : sum (.real x) qs = .ok t) :
    (∃ y, t = .real y) ∧ ∀ q ∈ qs, q.Fits := by
  induction qs generalizing x with
  | nil =>
      cases h
      exact ⟨⟨x, rfl⟩, fun q hq => by cases hq⟩
  | cons q qs ih =>
      obtain ⟨s, hs, h⟩ := Fallible.bind_eq_ok.1 h
      obtain ⟨y, hy, rfl⟩ := add_real_iff.1 hs
      obtain ⟨hreal, hrest⟩ := ih h
      refine ⟨hreal, fun r hr => ?_⟩
      rcases List.mem_cons.1 hr with rfl | hr
      · exact ⟨y, hy⟩
      · exact hrest r hr

theorem sum_leading (ns : List Int) (x : Float) (qs : List Quantity) :
    sum 0 (ns.map .whole ++ .real x :: qs) =
      (Quantity.whole ns.sum).toFloat >>= fun y => sum (.real (y + x)) qs := by
  rw [sum_append, sum_integers, Fallible.ok_bind, sum, add, combine_real_right, bind_assoc]
  rfl

theorem meanInitiative_eq {queue : List Initiative.Entry} (h : queue ≠ []) :
    meanInitiative queue = sum 0 (queue.map (·.initiative)) >>= fun total =>
      (Quantity.real ·) <$> total.div (.whole queue.length) := by
  rw [meanInitiative, if_neg (by simpa using h)]
  rfl

theorem exists_map_iff {α β : Type} {r : Quantity.Result α} {f : α → β} :
    (∃ b, f <$> r = .ok b) ↔ ∃ a, r = .ok a := by
  cases r with
  | error cause => simp
  | ok a => exact iff_of_true ⟨f a, rfl⟩ ⟨a, rfl⟩

theorem exists_mean_whole {queue : List Initiative.Entry}
    (hqueue : queue.map (·.initiative) = ns.map .whole) (hne : queue ≠ []) :
    (∃ q, meanInitiative queue = .ok q) ↔ ns.sum.natAbs < Binary.limit * queue.length := by
  rw [meanInitiative_eq hne, hqueue, sum_integers, Fallible.ok_bind, exists_map_iff]
  exact div_whole_iff (List.length_pos_iff.2 hne)

theorem exists_mean_mixed {queue : List Initiative.Entry}
    (hqueue : queue.map (·.initiative) = ns.map .whole ++ .real x :: qs) :
    (∃ q, meanInitiative queue = .ok q) ↔
      ns.sum.natAbs < Binary.limit ∧ (∀ q ∈ qs, q.Fits) ∧ queue.length < Binary.limit := by
  have hne : queue ≠ [] := by
    rintro rfl
    simp at hqueue
  have hlength : (Quantity.whole queue.length).Fits ↔ queue.length < Binary.limit := fits_whole
  rw [meanInitiative_eq hne, hqueue, sum_leading, ← fits_whole, ← hlength]
  constructor
  · rintro ⟨q, hq⟩
    obtain ⟨total, htotal, hmean⟩ := Fallible.bind_eq_ok.1 hq
    obtain ⟨y, hy, hsum⟩ := Fallible.bind_eq_ok.1 htotal
    obtain ⟨⟨z, rfl⟩, hfits⟩ := of_sum_real hsum
    exact ⟨⟨y, hy⟩, hfits, div_real_iff.1 (exists_map_iff.1 ⟨q, hmean⟩)⟩
  · rintro ⟨⟨y, hy⟩, hfits, hdivides⟩
    obtain ⟨z, hz⟩ := exists_sum_real (y + x) hfits
    rw [hy, Fallible.ok_bind, hz, Fallible.ok_bind]
    exact exists_map_iff.2 (div_real_iff.2 hdivides)

theorem forall_fits_iff : (∀ q ∈ qs, q.Fits) ↔ ∀ n, .whole n ∈ qs → n.natAbs < Binary.limit := by
  refine ⟨fun h n hn => fits_whole.1 (h _ hn), fun h q hq => ?_⟩
  cases q with
  | whole n => exact fits_whole.2 (h n hq)
  | real x => exact fits_real x

/-- There is a mean initiative exactly if no float is asked to hold what is too large for it. -/
theorem exists_mean_iff (queue : List Initiative.Entry) :
    (∃ q, meanInitiative queue = .ok q) ↔ Averages (queue.map (·.initiative)) := by
  have hlength : queue.length = (queue.map (·.initiative)).length := (List.length_map _).symm
  constructor
  · intro hmean
    rcases exists_leading (queue.map (·.initiative)) with ⟨ns, hns⟩ | ⟨ns, x, rest, hns⟩
    · by_cases hne : queue = []
      · rw [hne]
        exact .none
      · have hless := (exists_mean_whole hns hne).1 hmean
        rw [hlength, hns, List.length_map] at hless
        rw [hns]
        exact .whole hless
    · obtain ⟨hsum, hfits, hless⟩ := (exists_mean_mixed hns).1 hmean
      rw [hlength, hns, List.length_append, List.length_map, List.length_cons] at hless
      rw [hns]
      exact .mixed hsum (forall_fits_iff.1 hfits) (by omega)
  · intro haverages
    generalize hqs : queue.map (·.initiative) = qs at haverages
    rw [hqs] at hlength
    cases haverages with
    | none =>
      rw [List.map_eq_nil_iff.1 hqs]
      exact ⟨0, rfl⟩
    | @whole ns hless =>
      rw [List.length_map] at hlength
      rw [← hlength] at hless
      refine (exists_mean_whole hqs ?_).2 hless
      rintro rfl
      exact absurd hless (by simp)
    | @mixed ns x rest hsum hrest hless =>
      rw [List.length_append, List.length_map, List.length_cons] at hlength
      exact (exists_mean_mixed hqs).2 ⟨hsum, forall_fits_iff.2 hrest, by omega⟩

end Battle

end Skirmish

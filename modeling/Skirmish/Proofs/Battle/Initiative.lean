import Skirmish.Battle.Initiative
import Skirmish.Proofs.Chance

namespace Skirmish.Initiative

open Chance

theorem place_perm (e : Entry) (es : List Entry) : (place e es).Perm (e :: es) := by
  induction es with
  | nil => rfl
  | cons x xs ih =>
      rw [place]
      split
      · rfl
      · exact (ih.cons x).trans (.swap e x xs)

theorem arrange_perm (es : List Entry) : (arrange es).Perm es := by
  have hfold : ∀ queue, (es.foldl (fun queue e => place e queue) queue).Perm (es ++ queue) := by
    induction es with
    | nil => exact fun queue => .refl queue
    | cons e es ih =>
        intro queue
        refine (ih _).trans ?_
        exact ((place_perm e queue).append_left es).trans List.perm_middle
  simpa [arrange] using hfold []

theorem roll_yields (variance : Quantity) (f : Fighter) :
    Yields (roll variance f) fun e => e.id = f.id := by
  refine (yields_true _).bind fun n _ => ?_
  exact (yields_true _).bind fun initiative _ => yields_pure rfl

theorem mapM_roll_yields (variance : Quantity) (fs : List Fighter) :
    Yields (fs.mapM (roll variance)) fun es => es.map (·.id) = fs.map Fighter.id := by
  induction fs with
  | nil => exact yields_pure rfl
  | cons f fs ih =>
      rw [List.mapM_cons]
      refine (roll_yields variance f).bind fun e he => ih.bind fun es hes => yields_pure ?_
      rw [List.map_cons, List.map_cons, he, hes]

theorem queue_yields (variance : Quantity) (fighters : List Fighter) :
    Yields (queue variance fighters) fun es =>
      (es.map (·.id)).Perm ((Roster.living fighters).map Fighter.id) := by
  refine (mapM_roll_yields variance _).bind fun es hes => yields_pure ?_
  exact hes ▸ (arrange_perm es).map _

end Skirmish.Initiative

import Skirmish.Battle.Tactics
import Skirmish.Proofs.Chance

namespace Skirmish.Tactics

open Chance

variable {v : View} {c : Config}

def Own (self : Fighter) (o : Order) : Prop :=
  (o.kind = .skill ∨ o.kind = .defend) ∧ o.actorId = self.id

theorem useOn_own (v : View) (skillId : String) (targets : List String) :
    Own v.self (v.useOn skillId targets) :=
  ⟨.inl rfl, rfl⟩

theorem use_own (v : View) (s : Skill) (target : Fighter) : Own v.self (v.use s target) :=
  useOn_own v s.id _

theorem defend_own (v : View) : Own v.self v.defend := ⟨.inr rfl, rfl⟩

theorem heal?_own {percent : Float} {threshold : Quantity} {o : Order}
    (h : v.heal? percent threshold = some o) : Own v.self o := by
  rw [View.heal?] at h
  split at h
  · obtain ⟨s, -, rfl⟩ := Option.map_eq_some_iff.1 h
    exact useOn_own v _ _
  · cases h

theorem aggressive_own : Yields (aggressive c v) (Own v.self) := by
  refine (yields_true _).bind fun target _ => ?_
  split
  · exact yields_pure (useOn_own v _ _)
  · exact yields_pure (use_own v _ target)

theorem defensive_own : Yields (defensive c v) (Own v.self) := by
  refine (yields_true _).bind fun percent _ => ?_
  split
  next order hheal => exact yields_pure (heal?_own hheal)
  next =>
    split
    · exact yields_pure (defend_own v)
    · split
      · exact yields_pure (defend_own v)
      · exact (yields_true _).bind fun target _ => yields_pure (use_own v _ target)

theorem balanced_own : Yields (balanced c v) (Own v.self) := by
  refine (yields_true _).bind fun percent _ => ?_
  split
  next order hheal => exact yields_pure (heal?_own hheal)
  next =>
    refine (yields_true _).bind fun buff _ => ?_
    split
    · exact yields_pure (useOn_own v _ _)
    · refine (yields_true _).bind fun debuff _ => ?_
      split
      · exact (yields_true _).bind fun target _ => yields_pure (useOn_own v _ _)
      · split
        · exact yields_pure (defend_own v)
        · refine (yields_true _).bind fun s _ => ?_
          exact (yields_true _).bind fun target _ => yields_pure (use_own v s target)

theorem random_own : Yields (random v) (Own v.self) := by
  rw [random]
  split
  · exact yields_pure (defend_own v)
  · refine (yields_true _).bind fun s _ => ?_
    exact (yields_true _).bind fun target _ => yields_pure (use_own v s target)

theorem scripted_own {turn : Int} : Yields (scripted c v turn) (Own v.self) := by
  rw [scripted]
  split
  · exact (yields_true _).bind fun target _ => yields_pure (use_own v _ target)
  · split
    · exact yields_pure (useOn_own v _ _)
    · exact balanced_own

theorem choose_own {g : Game} {self : Fighter} {fighters : List Fighter} {turn : Int}
    {d : Option Declaration} : Yields (choose g self fighters turn d) (Own self) := by
  rw [choose]
  split
  next => exact yields_pure ⟨.inr rfl, rfl⟩
  next player others _ =>
    rw [act]
    split
    · exact aggressive_own
    · exact defensive_own
    · exact balanced_own
    · exact scripted_own
    · exact random_own
    · exact random_own

end Skirmish.Tactics

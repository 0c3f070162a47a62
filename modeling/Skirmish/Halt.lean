namespace Skirmish

/-- Why a computation stops before its end, and what it leaves behind. -/
structure Halt (ε σ : Type) where
  cause : ε
  left : σ

def leaving {ε σ α : Type} (s : σ) (x : Except ε α) : Except (Halt ε σ) α :=
  x.mapError fun cause => ⟨cause, s⟩

end Skirmish

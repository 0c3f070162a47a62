import Skirmish.Proofs.Formula.ParserCompleteness

namespace Skirmish.Formula

variable {α β : Type}

/-- A failure points at a fault of the text, unless it is one of the nesting bound. -/
def Points (r : Result α) : Prop :=
  ∀ err, r = .error err → err = .tooDeep ∨ ∃ fault position, err = .malformed fault position

theorem Points.ok (a : α) : Points (.ok a : Result α) := by simp [Points]

theorem Points.out : Points (.error .tooDeep : Result α) := by
  rintro err ⟨⟩
  exact .inl rfl

theorem Points.malformed (fault : Fault) (position : Nat) :
    Points (.error (.malformed fault position) : Result α) := by
  rintro err ⟨⟩
  exact .inr ⟨fault, position, rfl⟩

theorem Points.bind {r : Result α} {f : α → Result β} (h : Points r) (hf : ∀ a, Points (f a)) :
    Points (r >>= f) := by
  intro err herr
  rcases Fallible.bind_eq_error.1 herr with hr | ⟨a, -, ha⟩
  · exact h err hr
  · exact hf a err ha

theorem expect_points (kind : Token.Kind) (ts : List Token) : Points (expect kind ts) := by
  rw [expect]
  split
  · exact .ok _
  · exact .malformed _ _

structure Pointing (fuel : Nat) : Prop where
  ternary (ts) : Points (Formula.ternary fuel ts)
  binary (l ts) : Points (Formula.binary fuel l ts)
  operand (l ts) : Points (Formula.operand fuel l ts)
  chain (l left ts) : Points (Formula.chain fuel l left ts)
  unary (ts) : Points (Formula.unary fuel ts)
  primary (ts) : Points (Formula.primary fuel ts)
  arguments (ts) : Points (Formula.arguments fuel ts)
  moreArguments (ts) : Points (Formula.moreArguments fuel ts)

variable {fuel : Nat} {ts : List Token} {formula : String} {err : Error}

theorem ternary_points (ih : Pointing fuel) (ts : List Token) :
    Points (ternary (fuel + 1) ts) := by
  rw [Formula.ternary]
  refine (ih.binary .or ts).bind ?_
  rintro ⟨c, r⟩
  dsimp only
  split
  · refine (ih.ternary _).bind fun t => ?_
    refine (expect_points _ _).bind fun r => ?_
    exact (ih.ternary r).bind fun f => .ok _
  · exact .ok _

theorem operand_points (ih : Pointing fuel) (l : Level) (ts : List Token) :
    Points (operand (fuel + 1) l ts) := by
  cases l with
  | multiplicative => exact ih.unary ts
  | or | and | comparison | additive => exact ih.binary _ ts

theorem chain_points (ih : Pointing fuel) (l : Level) (left : Expr) (ts : List Token) :
    Points (chain (fuel + 1) l left ts) := by
  rw [Formula.chain]
  split
  · exact (ih.operand l _).bind fun r => ih.chain l _ _
  · exact .ok _

theorem unary_points (ih : Pointing fuel) (ts : List Token) : Points (unary (fuel + 1) ts) := by
  rw [Formula.unary]
  split
  · exact (ih.unary _).bind fun e => .ok _
  · exact ih.primary ts

theorem primary_points (ih : Pointing fuel) (ts : List Token) :
    Points (primary (fuel + 1) ts) := by
  rw [Formula.primary]
  split
  · exact .ok _
  · split
    · exact (ih.arguments _).bind fun es => .ok _
    · exact .ok _
  · refine (ih.ternary _).bind fun e => ?_
    exact (expect_points _ _).bind fun r => .ok _
  · exact .malformed _ _

theorem arguments_points (ih : Pointing fuel) (ts : List Token) :
    Points (arguments (fuel + 1) ts) := by
  rw [Formula.arguments]
  split
  · exact .ok _
  · refine (ih.ternary ts).bind fun first => ?_
    exact (ih.moreArguments _).bind fun others => .ok _

theorem moreArguments_points (ih : Pointing fuel) (ts : List Token) :
    Points (moreArguments (fuel + 1) ts) := by
  rw [Formula.moreArguments]
  split
  · refine (ih.ternary _).bind fun first => ?_
    exact (ih.moreArguments _).bind fun others => .ok _
  · exact (expect_points _ _).bind fun r => .ok _

theorem pointing (fuel : Nat) : Pointing fuel := by
  induction fuel with
  | zero => constructor <;> intros <;> exact .out
  | succ fuel ih =>
      exact {
        ternary := ternary_points ih
        binary := fun l ts => by
          rw [Formula.binary]
          exact (ih.operand l ts).bind fun left => ih.chain l _ _
        operand := operand_points ih
        chain := chain_points ih
        unary := unary_points ih
        primary := primary_points ih
        arguments := arguments_points ih
        moreArguments := moreArguments_points ih }

theorem parseTokens_points (ts : List Token) : Points (parseTokens ts) := by
  refine ((pointing _).ternary ts).bind ?_
  rintro ⟨e, rest⟩
  exact (expect_points _ _).bind fun r => .ok _

/-- The bound taken for the tokens of a text is never too small. -/
theorem parseTokens_answers (hts : WellFormed ts) : Answers (parseTokens ts) := by
  refine (ternary_answers hts).bind ?_
  rintro ⟨e, rest⟩ -
  exact (expect_answers _ _).bind fun r _ => .ok _

theorem parse_eq_error (h : parse formula = .error err) :
    ∃ fault position, err = .malformed fault position := by
  rcases Fallible.bind_eq_error.1 h with hscan | ⟨ts, hts, hparse⟩
  · obtain ⟨fault, position, rfl, -⟩ := failsAt_of_tokenize hscan
    exact ⟨fault, position, rfl⟩
  · obtain ⟨body, last, hended⟩ := tokenize_ended hts
    refine (parseTokens_points ts err hparse).resolve_left ?_
    rintro rfl
    exact parseTokens_answers hended.wellFormed hparse

end Skirmish.Formula

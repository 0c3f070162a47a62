import Skirmish.Proofs.Formula.Evaluation

namespace Skirmish.Formula

/-- The formula has a value, or it is at fault itself. -/
def answers (formula : String) (c : Context) : Bool :=
  match compute formula c with
  | .ok _ => true
  | .error err => err.isFormulaFault && err ≠ .tooDeep

/-- Where an evaluation leaves the formula language, and what comes of it. -/
inductive Expr.Escapes (c : Context) : Expr → ArithmeticError → Prop
  | integer {path : String} {n : Int}
      (h : c.at? (Text.parts '.' path) = some (.number (.whole n)))
      (hn : Binary.limit ≤ n.natAbs) : Escapes c (.name path) .overflow
  | remainder {l r : Expr} {x y : Float} (hl : l.eval Functions.standard c = .ok x)
      (hr : r.eval Functions.standard c = .ok y) (h : Boundless x y) :
      Escapes c (.binary .mod l r) .undefined

variable {formula : String} {c : Context} {s : Expr} {cause : ArithmeticError}

theorem Expr.fails_arithmetic :
    s.Fails Functions.standard c (.arithmetic cause) ↔ s.Escapes c cause := by
  constructor
  · intro h
    cases h with
    | name h =>
      rcases Context.resolve_eq_error.1 h with ⟨-, hnone⟩ | ⟨n, hpath, hn, herr⟩
      · cases hnone
      · cases herr
        exact .integer hpath hn
    | binary hl hr h =>
      rcases BinaryOp.apply_eq_error h with h | h | ⟨_, h⟩ | ⟨rfl, hbound, h⟩
      all_goals cases h
      exact .remainder hl hr hbound
    | unary he h =>
      obtain ⟨_, h⟩ := UnaryOp.apply_eq_error h
      cases h
  · intro h
    cases h with
    | integer hpath hn => exact .name (Context.resolve_eq_error.2 (.inr ⟨_, hpath, hn, rfl⟩))
    | remainder hl hr h => exact .binary hl hr (BinaryOp.apply_mod h)

/-- Arithmetic fails exactly where the evaluation comes to a part that escapes. -/
theorem compute_eq_arithmetic : compute formula c = .error (.arithmetic cause) ↔
    ∃ s, Meets formula c s ∧ s.Escapes c cause := by
  rw [compute_eq_error]
  simp only [Expr.fails_arithmetic]
  refine or_iff_right fun h => ?_
  obtain ⟨fault, position, herr⟩ := parse_eq_error h
  cases herr

theorem compute_ne_tooDeep : compute formula c ≠ .error .tooDeep := by
  intro h
  rcases compute_eq_error.1 h with hparse | ⟨s, -, hfails⟩
  · obtain ⟨fault, position, herr⟩ := parse_eq_error hparse
    cases herr
  · cases hfails with
    | name h => simp [Context.resolve_eq_error] at h
    | binary hl hr h => simpa using BinaryOp.apply_eq_error h
    | unary he h => simpa using UnaryOp.apply_eq_error h

theorem answers_iff_ne : answers formula c = true ↔
    ∀ cause, compute formula c ≠ .error (.arithmetic cause) := by
  rw [answers]
  cases hcompute : compute formula c with
  | ok x => simp
  | error err => cases err <;> simp_all [Error.isFormulaFault, compute_ne_tooDeep]

/-- A formula has an answer exactly if its evaluation comes to no integer from the limit of the
floats on and to no remainder of an infinity; any text, any context. -/
theorem answers_iff_not_escapes (formula : String) (c : Context) :
    answers formula c = true ↔ ∀ s cause, Meets formula c s → ¬s.Escapes c cause := by
  simp only [answers_iff_ne, ne_eq, compute_eq_arithmetic, not_exists, not_and]
  exact forall_comm

def sole (name : String) (q : Quantity) : Context := .scope [(name, .number q)]

/-- An integer that is too large, and a remainder of an infinity. -/
theorem not_answers_hoard :
    answers "gold + 1" (sole "gold" (.whole (10 ^ 400))) = false ∧
      answers "gold * gold % 3" (sole "gold" (.real 1e300)) = false := by
  constructor <;> decide +kernel

end Skirmish.Formula

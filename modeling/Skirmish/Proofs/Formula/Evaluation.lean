import Skirmish.Formula.Eval
import Skirmish.Proofs.Formula.Faults
import Skirmish.Proofs.Number.Limit

namespace Skirmish.Formula

theorem Context.resolve_eq_error {c : Context} {path : String} {err : Error} :
    c.resolve path = .error err ↔
      ((∀ q, c.at? (Text.parts '.' path) ≠ some (.number q)) ∧ err = .unknownVariable path) ∨
        ∃ n : Int, c.at? (Text.parts '.' path) = some (.number (.whole n)) ∧
          Binary.limit ≤ n.natAbs ∧ err = .arithmetic .overflow := by
  rw [resolve]
  split
  next q hq =>
    cases q with
    | real x => simp [hq, Quantity.toFloat, arithmetic]
    | whole n =>
      simp only [hq, Quantity.toFloat, arithmetic, Fallible.mapError_eq_error,
        Quantity.floatOfInt_eq_error]
      simp [eq_comm]
  next hnone =>
    have hnone : ∀ q, c.at? (Text.parts '.' path) ≠ some (.number q) := fun q hq => hnone q hq
    simp [hnone, eq_comm]

/-- The remainder of an infinity by a number that is not zero. -/
def Boundless (x y : Float) : Prop := x.isInf = true ∧ y.isNaN = false ∧ (y == 0) = false

theorem BinaryOp.apply_eq_error {op : BinaryOp} {x y : Float} {err : Error}
    (h : op.apply x y = .error err) :
    err = .divisionByZero ∨ err = .moduloByZero ∨ (∃ symbol, err = .unknownOperator symbol) ∨
      op = .mod ∧ Boundless x y ∧ err = .arithmetic .undefined := by
  cases op with
  | div =>
    rw [BinaryOp.apply] at h
    split at h <;> simp_all
  | mod =>
    rw [BinaryOp.apply] at h
    split at h
    next => simp_all
    next hzero =>
      split at h
      next hinf => simp_all [Boundless]
      next => simp at h
  | other symbol =>
    cases h
    simp
  | _ => cases h

theorem BinaryOp.apply_mod {x y : Float} (h : Boundless x y) :
    BinaryOp.mod.apply x y = .error (.arithmetic .undefined) := by
  obtain ⟨hinf, hnan, hzero⟩ := h
  rw [BinaryOp.apply, if_neg (by simp [hzero]), if_pos (by rw [hinf, hnan]; rfl)]

theorem UnaryOp.apply_eq_error {op : UnaryOp} {x : Float} {err : Error}
    (h : op.apply x = .error err) : ∃ symbol, err = .unknownUnary symbol := by
  cases op with
  | other symbol =>
    cases h
    exact ⟨symbol, rfl⟩
  | _ => cases h

namespace Expr

variable {functions : Functions} {c : Context} {e s : Expr} {es : List Expr} {err : Error}

/-- The evaluation of the first expression comes to the second one: to the operands from left to
right, to one branch only, and to the arguments of a function that is known. -/
inductive Visits (functions : Functions) (c : Context) : Expr → Expr → Prop
  | self (e : Expr) : Visits functions c e e
  | left {op : BinaryOp} {l r s : Expr} (h : Visits functions c l s) :
      Visits functions c (.binary op l r) s
  | right {op : BinaryOp} {l r s : Expr} {x : Float} (hl : l.eval functions c = .ok x)
      (h : Visits functions c r s) : Visits functions c (.binary op l r) s
  | operand {op : UnaryOp} {e s : Expr} (h : Visits functions c e s) :
      Visits functions c (.unary op e) s
  | condition {b t f s : Expr} (h : Visits functions c b s) :
      Visits functions c (.ternary b t f) s
  | branch {b t f s : Expr} {x : Float} (hb : b.eval functions c = .ok x)
      (h : Visits functions c (if isTrue x then t else f) s) :
      Visits functions c (.ternary b t f) s
  | argument {function : String} {f : Builtin} {before after : List Expr} {a s : Expr}
      {xs : List Float} (hf : functions.get? function = some f)
      (hbefore : evalAll functions c before = .ok xs) (h : Visits functions c a s) :
      Visits functions c (.call function (before ++ a :: after)) s

/-- The expression has no value although its parts have theirs. -/
inductive Fails (functions : Functions) (c : Context) : Expr → Error → Prop
  | name {path : String} {err : Error} (h : c.resolve path = .error err) :
      Fails functions c (.name path) err
  | binary {op : BinaryOp} {l r : Expr} {x y : Float} {err : Error}
      (hl : l.eval functions c = .ok x) (hr : r.eval functions c = .ok y)
      (h : op.apply x y = .error err) : Fails functions c (.binary op l r) err
  | unary {op : UnaryOp} {e : Expr} {x : Float} {err : Error} (he : e.eval functions c = .ok x)
      (h : op.apply x = .error err) : Fails functions c (.unary op e) err
  | unknownFunction {function : String} {args : List Expr} (h : functions.get? function = none) :
      Fails functions c (.call function args) (.unknownFunction function)
  | invalidArguments {function : String} {f : Builtin} {args : List Expr} {xs : List Float}
      (hf : functions.get? function = some f) (hargs : evalAll functions c args = .ok xs)
      (h : f.value? xs = none) :
      Fails functions c (.call function args) (.invalidArguments function)
  | stray (text : String) : Fails functions c (.stray text) (.unknownNode text)

theorem evalAll_of_error {a : Expr} {before after : List Expr} {xs : List Float}
    (hbefore : evalAll functions c before = .ok xs) (ha : a.eval functions c = .error err) :
    evalAll functions c (before ++ a :: after) = .error err := by
  induction before generalizing xs with
  | nil => simp [evalAll, ha]
  | cons b before ih =>
      simp only [evalAll, Fallible.bind_eq_ok] at hbefore
      obtain ⟨x, hx, ys, hys, -⟩ := hbefore
      simp [evalAll, hx, ih hys]

theorem Fails.eval (h : s.Fails functions c err) : s.eval functions c = .error err := by
  cases h with
  | name h => simpa [Expr.eval] using h
  | binary hl hr h => simp [Expr.eval, hl, hr, h]
  | unary he h => simp [Expr.eval, he, h]
  | unknownFunction h => simp [Expr.eval, h]
  | invalidArguments hf hargs h => simp [Expr.eval, hf, hargs, h]
  | stray text => simp [Expr.eval]

theorem Visits.eval (h : e.Visits functions c s) (hs : s.eval functions c = .error err) :
    e.eval functions c = .error err := by
  induction h with
  | self => exact hs
  | left _ ih => simp [Expr.eval, ih hs]
  | right hl _ ih => simp [Expr.eval, hl, ih hs]
  | operand _ ih => simp [Expr.eval, ih hs]
  | condition _ ih => simp [Expr.eval, ih hs]
  | branch hb _ ih =>
      have hbranch := ih hs
      simp only [Expr.eval, hb, Fallible.ok_bind]
      split <;> simp_all
  | argument hf hbefore _ ih => simp [Expr.eval, hf, evalAll_of_error hbefore (ih hs)]

mutual

theorem exists_fails : ∀ (e : Expr), e.eval functions c = .error err →
    ∃ s, e.Visits functions c s ∧ s.Fails functions c err
  | .number x, h => by simp [Expr.eval] at h
  | .name path, h => ⟨_, .self _, .name (by simpa [Expr.eval] using h)⟩
  | .binary op l r, h => by
      rw [Expr.eval, Fallible.bind_eq_error] at h
      rcases h with hl | ⟨x, hl, h⟩
      · obtain ⟨s, hs, hfails⟩ := exists_fails l hl
        exact ⟨s, .left hs, hfails⟩
      rcases Fallible.bind_eq_error.1 h with hr | ⟨y, hr, h⟩
      · obtain ⟨s, hs, hfails⟩ := exists_fails r hr
        exact ⟨s, .right hl hs, hfails⟩
      · exact ⟨_, .self _, .binary hl hr h⟩
  | .unary op e, h => by
      rw [Expr.eval, Fallible.bind_eq_error] at h
      rcases h with he | ⟨x, he, h⟩
      · obtain ⟨s, hs, hfails⟩ := exists_fails e he
        exact ⟨s, .operand hs, hfails⟩
      · exact ⟨_, .self _, .unary he h⟩
  | .ternary b t f, h => by
      rw [Expr.eval, Fallible.bind_eq_error] at h
      rcases h with hb | ⟨x, hb, h⟩
      · obtain ⟨s, hs, hfails⟩ := exists_fails b hb
        exact ⟨s, .condition hs, hfails⟩
      by_cases hx : isTrue x = true
      · rw [if_pos hx] at h
        obtain ⟨s, hs, hfails⟩ := exists_fails t h
        exact ⟨s, .branch hb (by rwa [if_pos hx]), hfails⟩
      · rw [if_neg hx] at h
        obtain ⟨s, hs, hfails⟩ := exists_fails f h
        exact ⟨s, .branch hb (by rwa [if_neg hx]), hfails⟩
  | .call function args, h => by
      rw [Expr.eval] at h
      cases hf : functions.get? function with
      | none =>
        rw [hf] at h
        cases h
        exact ⟨_, .self _, .unknownFunction hf⟩
      | some f =>
        rw [hf] at h
        rcases Fallible.bind_eq_error.1 h with hargs | ⟨xs, hargs, h⟩
        · obtain ⟨before, a, after, xs, rfl, hbefore, s, hs, hfails⟩ := exists_fails_all args hargs
          exact ⟨s, .argument hf hbefore hs, hfails⟩
        · split at h
          next => cases h
          next hnone =>
            cases h
            exact ⟨_, .self _, .invalidArguments hf hargs hnone⟩
  | .stray text, h => by
      cases h
      exact ⟨_, .self _, .stray text⟩

theorem exists_fails_all : ∀ (es : List Expr), evalAll functions c es = .error err →
    ∃ before a after xs, es = before ++ a :: after ∧ evalAll functions c before = .ok xs ∧
      ∃ s, a.Visits functions c s ∧ s.Fails functions c err
  | [], h => by simp [evalAll] at h
  | e :: es, h => by
      rw [evalAll, Fallible.bind_eq_error] at h
      rcases h with he | ⟨x, he, h⟩
      · exact ⟨[], e, es, [], rfl, rfl, exists_fails e he⟩
      rcases Fallible.bind_eq_error.1 h with hes | ⟨xs, -, h⟩
      · obtain ⟨before, a, after, xs, rfl, hbefore, hfails⟩ := exists_fails_all es hes
        exact ⟨e :: before, a, after, x :: xs, rfl, by simp [evalAll, he, hbefore], hfails⟩
      · cases h

end

/-- An evaluation fails exactly where it comes to a part that fails. -/
theorem eval_eq_error :
    e.eval functions c = .error err ↔ ∃ s, e.Visits functions c s ∧ s.Fails functions c err :=
  ⟨exists_fails e, fun ⟨_, hs, hfails⟩ => hs.eval hfails.eval⟩

theorem mem_namesOf {n : String} : n ∈ namesOf es ↔ ∃ e ∈ es, n ∈ e.names := by
  induction es with
  | nil => simp [namesOf]
  | cons e es ih => simp [namesOf, ih]

theorem Visits.names_subset (h : e.Visits functions c s) : s.names ⊆ e.names := by
  intro n hn
  induction h with
  | self => exact hn
  | left _ ih | right _ _ ih | operand _ ih | condition _ ih => simp [names, ih hn]
  | @branch b t f s x hb _ ih =>
      have hbranch := ih hn
      split at hbranch <;> simp [names, hbranch]
  | argument hf hbefore _ ih =>
      exact mem_namesOf.2 ⟨_, List.mem_append_cons_self, ih hn⟩

theorem not_fails_malformed {fault : Fault} {position : Nat} :
    ¬s.Fails functions c (.malformed fault position) := by
  intro h
  cases h with
  | name h => simp [Context.resolve_eq_error] at h
  | binary hl hr h => simpa using BinaryOp.apply_eq_error h
  | unary he h => simpa using UnaryOp.apply_eq_error h

theorem fails_unknownVariable {n : String} : s.Fails functions c (.unknownVariable n) ↔
    s = .name n ∧ c.resolve n = .error (.unknownVariable n) := by
  constructor
  · intro h
    cases h with
    | name h =>
      have hname := Context.resolve_eq_error.1 h
      simp only [Error.unknownVariable.injEq, reduceCtorEq, and_false, exists_false,
        or_false] at hname
      obtain rfl := hname.2
      exact ⟨rfl, h⟩
    | binary hl hr h => simpa using BinaryOp.apply_eq_error h
    | unary he h => simpa using UnaryOp.apply_eq_error h
  · rintro ⟨rfl, h⟩
    exact .name h

theorem fails_unknownFunction {f : String} : s.Fails functions c (.unknownFunction f) ↔
    (∃ args, s = .call f args) ∧ functions.get? f = none := by
  constructor
  · intro h
    cases h with
    | name h => simp [Context.resolve_eq_error] at h
    | binary hl hr h => simpa using BinaryOp.apply_eq_error h
    | unary he h => simpa using UnaryOp.apply_eq_error h
    | unknownFunction h => exact ⟨⟨_, rfl⟩, h⟩
  · rintro ⟨⟨args, rfl⟩, h⟩
    exact .unknownFunction h

end Expr

variable {formula : String} {c : Context} {err : Error}

def Meets (formula : String) (c : Context) (s : Expr) : Prop :=
  ∃ e, parse formula = .ok e ∧ e.Visits Functions.standard c s

theorem Meets.mem_names {e : Expr} {n : String} (h : Meets formula c (.name n))
    (he : parse formula = .ok e) : n ∈ e.names := by
  obtain ⟨e', he', hvisits⟩ := h
  cases he.symm.trans he'
  exact hvisits.names_subset (by simp [Expr.names])

theorem compute_eq_error : compute formula c = .error err ↔
    parse formula = .error err ∨ ∃ s, Meets formula c s ∧ s.Fails Functions.standard c err := by
  rw [compute, computeWith, Fallible.bind_eq_error]
  refine or_congr_right ?_
  simp only [Expr.eval_eq_error, Meets]
  constructor
  · rintro ⟨e, he, s, hs, hfails⟩
    exact ⟨s, ⟨e, he, hs⟩, hfails⟩
  · rintro ⟨s, ⟨e, he, hs⟩, hfails⟩
    exact ⟨e, he, s, hs, hfails⟩

theorem compute_eq_malformed {fault : Fault} {position : Nat} :
    compute formula c = .error (.malformed fault position) ↔
      parse formula = .error (.malformed fault position) := by
  simp [compute_eq_error, Expr.not_fails_malformed]

theorem compute_eq_unknownVariable {n : String} :
    compute formula c = .error (.unknownVariable n) ↔
      Meets formula c (.name n) ∧ c.resolve n = .error (.unknownVariable n) := by
  have hparse : parse formula ≠ .error (.unknownVariable n) := by
    intro h
    obtain ⟨fault, position, herr⟩ := parse_eq_error h
    cases herr
  simp only [compute_eq_error, hparse, false_or, Expr.fails_unknownVariable]
  constructor
  · rintro ⟨s, hmeets, rfl, hresolve⟩
    exact ⟨hmeets, hresolve⟩
  · rintro ⟨hmeets, hresolve⟩
    exact ⟨_, hmeets, rfl, hresolve⟩

theorem compute_eq_unknownFunction {f : String} :
    compute formula c = .error (.unknownFunction f) ↔
      Functions.standard.get? f = none ∧ ∃ args, Meets formula c (.call f args) := by
  have hparse : parse formula ≠ .error (.unknownFunction f) := by
    intro h
    obtain ⟨fault, position, herr⟩ := parse_eq_error h
    cases herr
  simp only [compute_eq_error, hparse, false_or, Expr.fails_unknownFunction]
  constructor
  · rintro ⟨s, hmeets, ⟨args, rfl⟩, hnone⟩
    exact ⟨hnone, args, hmeets⟩
  · rintro ⟨hnone, args, hmeets⟩
    exact ⟨_, hmeets, ⟨args, rfl⟩, hnone⟩

end Skirmish.Formula

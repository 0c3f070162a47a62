import Skirmish.Proofs.Formula.Evaluation
import Skirmish.Proofs.Formula.Names

namespace Skirmish.Formula

variable {ε : Type}

/-- Functions of any kind, each with a way of its own to fail. -/
abbrev Library (ε : Type) := Table (List Float → Except ε Float)

inductive Failure (ε : Type) where
  | fault (err : Error)
  | refusal (function : String) (reason : ε)

def Failure.toError : Failure ε → Error
  | fault err => err
  | refusal function _ => .invalidArguments function

def Builtin.run (f : Builtin) (xs : List Float) : Except Unit Float :=
  match f.value? xs with
  | some x => .ok x
  | none => .error ()

def Functions.library (functions : Functions) : Library Unit := functions.map fun _ f => f.run

theorem mapError_fault {α : Type} (r : Result α) :
    (r.mapError (Failure.fault (ε := ε))).mapError Failure.toError = r := by
  cases r <;> rfl

theorem mapError_run (f : Builtin) (xs : List Float) (function : String) :
    ((f.run xs).mapError (Failure.refusal function)).mapError Failure.toError =
      match f.value? xs with
      | some x => .ok x
      | none => .error (.invalidArguments function) := by
  rw [Builtin.run]
  cases f.value? xs <;> rfl

/-- An unknown variable, if that is what is wrong, is one of the list. -/
def Failure.Within (known : List String) (failure : Failure ε) : Prop :=
  ∀ n, failure = .fault (.unknownVariable n) → n ∈ known

theorem within_of_forall {known : List String} {r : Result Float}
    (h : ∀ n, r = .error (.unknownVariable n) → n ∈ known) :
    Fallible.FailsOnly (Failure.Within (ε := ε) known) (r.mapError .fault) := by
  rintro failure hfails n rfl
  obtain ⟨err, herr, hfault⟩ := Fallible.mapError_eq_error.1 hfails
  cases hfault
  exact h n herr

theorem refusal_within (known : List String) (function : String) (r : Except ε Float) :
    Fallible.FailsOnly (Failure.Within known) (r.mapError (Failure.refusal function)) := by
  rintro failure hfails n rfl
  obtain ⟨reason, -, hrefusal⟩ := Fallible.mapError_eq_error.1 hfails
  cases hrefusal

namespace Expr

mutual

/-- Evaluation as by `eval`, with the functions of a library. -/
def evalIn (library : Library ε) (c : Context) : Expr → Except (Failure ε) Float
  | number x => .ok x
  | name path => (c.resolve path).mapError .fault
  | binary op l r => do
    let x ← l.evalIn library c
    let y ← r.evalIn library c
    (op.apply x y).mapError .fault
  | unary op e => do
    let x ← e.evalIn library c
    (op.apply x).mapError .fault
  | ternary b t f => do
    if isTrue (← b.evalIn library c) then t.evalIn library c else f.evalIn library c
  | call function args => do
    match library.get? function with
    | none => .error (.fault (.unknownFunction function))
    | some f =>
      let values ← evalAllIn library c args
      (f values).mapError (.refusal function)
  | stray text => .error (.fault (.unknownNode text))

def evalAllIn (library : Library ε) (c : Context) :
    List Expr → Except (Failure ε) (List Float)
  | [] => .ok []
  | e :: es => do
    let x ← e.evalIn library c
    let xs ← evalAllIn library c es
    return x :: xs

end

mutual

/-- The functions of the language are one library among others. -/
theorem eval_eq_evalIn (functions : Functions) (c : Context) : ∀ e : Expr,
    e.eval functions c = (e.evalIn functions.library c).mapError Failure.toError
  | .number x => rfl
  | .name path => by rw [eval, evalIn, mapError_fault]
  | .binary op l r => by
      rw [eval, evalIn, l.eval_eq_evalIn, r.eval_eq_evalIn]
      simp only [Fallible.mapError_bind, mapError_fault]
  | .unary op e => by
      rw [eval, evalIn, e.eval_eq_evalIn]
      simp only [Fallible.mapError_bind, mapError_fault]
  | .ternary b t f => by
      rw [eval, evalIn, b.eval_eq_evalIn, t.eval_eq_evalIn, f.eval_eq_evalIn,
        Fallible.mapError_bind]
      congr 1
      funext x
      split <;> rfl
  | .call function args => by
      rw [eval, evalIn, evalAll_eq_evalAllIn functions c args, Functions.library, Table.get?_map]
      cases functions.get? function with
      | none => rfl
      | some f =>
        rw [Option.map_some]
        refine Eq.trans ?_ (Fallible.mapError_bind _ _ _).symm
        refine congrArg (Bind.bind _) (funext fun values => ?_)
        exact (mapError_run f values function).symm
  | .stray text => rfl

theorem evalAll_eq_evalAllIn (functions : Functions) (c : Context) : ∀ es : List Expr,
    evalAll functions c es = (evalAllIn functions.library c es).mapError Failure.toError
  | [] => rfl
  | e :: es => by
      rw [evalAll, evalAllIn, e.eval_eq_evalIn, evalAll_eq_evalAllIn functions c es]
      simp only [Fallible.mapError_bind]
      rfl

end

variable {library : Library ε} {c d : Context}

mutual

theorem evalIn_congr : ∀ e : Expr, (∀ n ∈ e.names, c.resolve n = d.resolve n) →
    e.evalIn library c = e.evalIn library d
  | .number _, _ | .stray _, _ => rfl
  | .name path, h => by rw [evalIn, evalIn, h path (by simp [names])]
  | .binary op l r, h => by
      simp only [names, List.forall_mem_append] at h
      rw [evalIn, evalIn, l.evalIn_congr h.1, r.evalIn_congr h.2]
  | .unary op e, h => by rw [evalIn, evalIn, e.evalIn_congr h]
  | .ternary b t f, h => by
      simp only [names, List.forall_mem_append] at h
      rw [evalIn, evalIn, b.evalIn_congr h.1.1, t.evalIn_congr h.1.2, f.evalIn_congr h.2]
  | .call function args, h => by rw [evalIn, evalIn, evalAllIn_congr args h]

theorem evalAllIn_congr : ∀ es : List Expr, (∀ n ∈ namesOf es, c.resolve n = d.resolve n) →
    evalAllIn library c es = evalAllIn library d es
  | [], _ => rfl
  | e :: es, h => by
      simp only [namesOf, List.forall_mem_append] at h
      rw [evalAllIn, evalAllIn, e.evalIn_congr h.1, evalAllIn_congr es h.2]

end

variable {known : List String}

mutual

theorem evalIn_within : ∀ e : Expr, e.names ⊆ known →
    Fallible.FailsOnly (Failure.Within known) (e.evalIn library c)
  | .number _, _ => .ok _
  | .name path, h => by
      rw [evalIn]
      refine within_of_forall fun n hn => ?_
      rcases Context.resolve_eq_error.1 hn with ⟨-, hname⟩ | ⟨-, -, -, hname⟩
      · cases hname
        exact h (by simp [names])
      · cases hname
  | .binary op l r, h => by
      rw [names, List.append_subset] at h
      rw [evalIn]
      refine (l.evalIn_within h.1).bind fun x _ => ?_
      refine (r.evalIn_within h.2).bind fun y _ => within_of_forall fun n hn => ?_
      simpa using BinaryOp.apply_eq_error hn
  | .unary op e, h => by
      rw [evalIn]
      refine (e.evalIn_within h).bind fun x _ => within_of_forall fun n hn => ?_
      simpa using UnaryOp.apply_eq_error hn
  | .ternary b t f, h => by
      rw [names, List.append_subset, List.append_subset] at h
      rw [evalIn]
      refine (b.evalIn_within h.1.1).bind fun x _ => ?_
      split
      · exact t.evalIn_within h.1.2
      · exact f.evalIn_within h.2
  | .call function args, h => by
      rw [evalIn]
      split
      · rintro failure hfails n rfl
        cases hfails
      · exact (evalAllIn_within args h).bind fun xs _ => refusal_within known function _
  | .stray _, _ => by
      rintro failure hfails n rfl
      cases hfails

theorem evalAllIn_within : ∀ es : List Expr, namesOf es ⊆ known →
    Fallible.FailsOnly (Failure.Within known) (evalAllIn library c es)
  | [], _ => .ok _
  | e :: es, h => by
      rw [namesOf, List.append_subset] at h
      rw [evalAllIn]
      refine (e.evalIn_within h.1).bind fun x _ => ?_
      exact (evalAllIn_within es h.2).bind fun xs _ => .ok _

end

end Expr

def computeIn (library : Library ε) (formula : String) (c : Context) :
    Except (Failure ε) Float := do
  (← (parse formula).mapError .fault).evalIn library c

variable {library : Library ε} {functions : Functions} {formula : String} {e : Expr}
  {c d : Context}

theorem computeIn_of_parse (he : parse formula = .ok e) :
    computeIn library formula c = e.evalIn library c := by
  rw [computeIn, he]
  rfl

theorem computeWith_eq_computeIn : computeWith functions formula c =
    (computeIn functions.library formula c).mapError Failure.toError := by
  rw [computeWith, computeIn, Fallible.mapError_bind, mapError_fault]
  simp only [Expr.eval_eq_evalIn]

theorem computeWith_congr (he : parse formula = .ok e)
    (h : ∀ n ∈ e.names, c.resolve n = d.resolve n) :
    computeWith functions formula c = computeWith functions formula d := by
  rw [computeWith_eq_computeIn, computeWith_eq_computeIn, computeIn_of_parse he,
    computeIn_of_parse he, e.evalIn_congr h]

theorem computeIn_within (he : parse formula = .ok e) :
    Fallible.FailsOnly (Failure.Within e.names) (computeIn library formula c) := by
  rw [computeIn_of_parse he]
  exact e.evalIn_within (List.Subset.refl _)

theorem mem_names_of_unknownVariable {n : String} (he : parse formula = .ok e)
    (h : computeWith functions formula c = .error (.unknownVariable n)) : n ∈ e.names := by
  rw [computeWith_eq_computeIn] at h
  obtain ⟨failure, hfailure, herr⟩ := Fallible.mapError_eq_error.1 h
  refine computeIn_within he failure hfailure n ?_
  cases failure with
  | fault err => exact congrArg Failure.fault herr
  | refusal function reason => cases herr

/-- Contexts in which the names of a formula come to the same, number or error, give the formula
the same value or the same failure, with the functions of the language under any names and with
functions of any other kind; and a variable is unknown only if it is one of the names. -/
theorem outcome_of_names (he : parse formula = .ok e)
    (h : ∀ n ∈ e.distinctNames, c.resolve n = d.resolve n) :
    (∀ functions : Functions,
      computeWith functions formula c = computeWith functions formula d ∧
        ∀ n, computeWith functions formula c = .error (.unknownVariable n) →
          n ∈ e.distinctNames) ∧
      ∀ (ε : Type) (library : Library ε),
        computeIn library formula c = computeIn library formula d ∧
          ∀ n, computeIn library formula c = .error (.fault (.unknownVariable n)) →
            n ∈ e.distinctNames := by
  simp only [Expr.mem_distinctNames] at h ⊢
  refine ⟨fun functions => ⟨computeWith_congr he h, ?_⟩, fun ε library => ⟨?_, ?_⟩⟩
  · exact fun n hn => mem_names_of_unknownVariable he hn
  · rw [computeIn_of_parse he, computeIn_of_parse he, e.evalIn_congr h]
  · exact fun n hn => computeIn_within he _ hn n rfl

/-- One of the contexts knows more than the formula names, and neither knows all of its names. -/
theorem outcome_of_names_duel : ∃ e c d, parse "hp > 9 ? min(hp, 2) : lost" = .ok e ∧
    c.resolve "mp" ≠ d.resolve "mp" ∧ (∀ n ∈ e.distinctNames, c.resolve n = d.resolve n) ∧
    compute "hp > 9 ? min(hp, 2) : lost" c = compute "hp > 9 ? min(hp, 2) : lost" d ∧
    ∀ library : Library String, computeIn library "hp > 9 ? min(hp, 2) : lost" c =
      computeIn library "hp > 9 ? min(hp, 2) : lost" d := by
  have hparse : (parse "hp > 9 ? min(hp, 2) : lost").toOption.map Expr.distinctNames =
      some ["hp", "lost"] := by decide +kernel
  obtain ⟨e, he, hnames⟩ := Fallible.exists_eq_ok_and hparse
  let c : Context := .scope [("hp", .number 5), ("mp", .number 3)]
  let d : Context := .scope [("hp", .number 5)]
  have hagree : ∀ n ∈ e.distinctNames, c.resolve n = d.resolve n := by
    rw [hnames]
    decide +kernel
  have hall := outcome_of_names he hagree
  refine ⟨e, c, d, he, by decide +kernel, hagree, (hall.1 .standard).1, ?_⟩
  exact fun library => (hall.2 String library).1

end Skirmish.Formula

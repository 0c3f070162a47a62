import Skirmish.Formula.Context
import Skirmish.Formula.Parse

namespace Skirmish.Formula

inductive Builtin where
  | min | max | floor | ceil | round | abs | sqrt | pow | clamp
  deriving DecidableEq, Repr

namespace Builtin

def name : Builtin → String
  | min => "min"
  | max => "max"
  | floor => "floor"
  | ceil => "ceil"
  | round => "round"
  | abs => "abs"
  | sqrt => "sqrt"
  | pow => "pow"
  | clamp => "clamp"

def all : List Builtin := [min, max, floor, ceil, round, abs, sqrt, pow, clamp]

def smaller (x y : Float) : Float := if y < x then y else x

def greater (x y : Float) : Float := if x < y then y else x

def whole? (f : Binary.Parts → Int) (x : Float) : Option Float :=
  (Binary.parts? x).map fun p => Binary.ofInt (f p)

/-- Refuses an infinite or undefined power of finite numbers. -/
def power? (x y : Float) : Option Float :=
  let z := Float.pow x y
  if x.isFinite && y.isFinite && !z.isFinite then none else some z

def value? : Builtin → List Float → Option Float
  | min, x :: y :: rest => some ((y :: rest).foldl smaller x)
  | max, x :: y :: rest => some ((y :: rest).foldl greater x)
  | floor, [x] => whole? Binary.Parts.floor x
  | ceil, [x] => whole? Binary.Parts.ceil x
  | round, [x] => whole? Binary.Parts.floor (x + 0.5)
  | abs, [x] => some x.abs
  | sqrt, [x] => if x < 0 then none else some x.sqrt
  | pow, [x, y] => power? x y
  | clamp, [x, low, high] => some (smaller (greater x low) high)
  | _, _ => none

end Builtin

abbrev Functions := Table Builtin

def Functions.standard : Functions :=
  Table.ofList (Builtin.all.map fun f => (f.name, f))

def isTrue (x : Float) : Bool := !(x == 0)

def truth (b : Bool) : Float := if b then 1 else 0

def BinaryOp.apply (op : BinaryOp) (x y : Float) : Result Float :=
  match op with
  | add => .ok (x + y)
  | sub => .ok (x - y)
  | mul => .ok (x * y)
  | div => if y == 0 then .error .divisionByZero else .ok (x / y)
  | mod =>
    if y == 0 then .error .moduloByZero
    else if x.isInf && !y.isNaN then .error (.arithmetic .undefined)
    else .ok (Binary.remainder x y)
  | lt => .ok (truth (x < y))
  | gt => .ok (truth (x > y))
  | le => .ok (truth (x ≤ y))
  | ge => .ok (truth (x ≥ y))
  | eq => .ok (truth (x == y))
  | ne => .ok (truth (!(x == y)))
  | and => .ok (truth (isTrue x && isTrue y))
  | or => .ok (truth (isTrue x || isTrue y))
  | other symbol => .error (.unknownOperator symbol)

def UnaryOp.apply (op : UnaryOp) (x : Float) : Result Float :=
  match op with
  | neg => .ok (-x)
  | not => .ok (truth (!isTrue x))
  | other symbol => .error (.unknownUnary symbol)

namespace Expr

mutual

def eval (functions : Functions) (context : Context) : Expr → Result Float
  | number x => .ok x
  | name path => context.resolve path
  | binary op l r => do
    let x ← l.eval functions context
    let y ← r.eval functions context
    op.apply x y
  | unary op e => do
    let x ← e.eval functions context
    op.apply x
  | ternary c t f => do
    if isTrue (← c.eval functions context) then t.eval functions context
    else f.eval functions context
  | call function args => do
    match functions.get? function with
    | none => .error (.unknownFunction function)
    | some f =>
      let values ← evalAll functions context args
      match f.value? values with
      | some x => .ok x
      | none => .error (.invalidArguments function)
  | stray text => .error (.unknownNode text)

def evalAll (functions : Functions) (context : Context) : List Expr → Result (List Float)
  | [] => .ok []
  | e :: es => do
    let x ← e.eval functions context
    let xs ← evalAll functions context es
    return x :: xs

end

end Expr

def computeWith (functions : Functions) (formula : String) (context : Context) : Result Float := do
  (← parse formula).eval functions context

def compute (formula : String) (context : Context) : Result Float :=
  computeWith Functions.standard formula context

end Skirmish.Formula

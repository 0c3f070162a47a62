import Skirmish.Number.Quantity

namespace Skirmish

/-- The numbers still to be drawn, the one that follows them for ever, and the draws so far. -/
structure Dice where
  values : List Float := []
  default : Float := 0.5
  drawn : Nat := 0

namespace Dice

def next (d : Dice) : Float := d.values.headD d.default

def afterDraw (d : Dice) : Dice := ⟨d.values.tail, d.default, d.drawn + 1⟩

theorem drawn_afterDraw (d : Dice) : d.afterDraw.drawn = d.drawn + 1 := rfl

def push (d : Dice) (values : List Float) : Dice := { d with values := d.values ++ values }

end Dice

/-- Computations that draw; a failure keeps the draws made before it. -/
abbrev Roll (ε : Type) := ExceptT ε (StateM Dice)

namespace Chance

inductive Error where
  | nothingToPick
  | outOfRange
  | arithmetic (cause : ArithmeticError)
  deriving DecidableEq, Repr

def Error.message : Error → String
  | nothingToPick => "cannot pick from an empty sequence"
  | outOfRange => "no element of this number"
  | arithmetic .overflow => "number too large"
  | arithmetic .undefined => "no such number"

variable {ε α : Type}

def arithmetic (r : Quantity.Result α) : Except Error α := r.mapError .arithmetic

def unit : Roll ε Float := do
  let d ← getThe Dice
  set d.afterDraw
  return d.next

def percent : Roll ε Float := return (← unit) * 100

def variance : Roll ε Float := return (← unit) * 2 - 1

structure Outcome where
  success : Bool
  roll : Float
  chance : Quantity

def test (chance : Quantity) : Roll ε Outcome := do
  let roll ← percent
  return ⟨(Quantity.real roll).lt chance, roll, chance⟩

/-- A whole number from zero up to the span; nothing is drawn for an empty span. -/
def below (span : Quantity) : Roll ArithmeticError Int := do
  if span.le 0 then return 0
  else
    let x ← unit
    let n := do (← (Quantity.real x).mul span).floor
    n

/-- Takes an element by its number; negative numbers count from the end. -/
def at? (xs : List α) (n : Int) : Option α :=
  let i := if n < 0 then n + xs.length else n
  if i < 0 then none else xs[i.toNat]?

def pick (xs : List α) : Roll Error α := do
  if xs.isEmpty then throw .nothingToPick
  else
    let n ← ExceptT.adapt Error.arithmetic (below (.whole xs.length))
    match at? xs n with
    | some x => return x
    | none => throw .outOfRange

end Chance

end Skirmish

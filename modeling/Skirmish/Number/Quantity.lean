import Skirmish.Number.Decimal

namespace Skirmish

inductive Quantity where
  | whole (n : Int)
  | real (x : Float)

inductive ArithmeticError where
  /-- An integer that no float can hold, or the whole part of an infinity. -/
  | overflow
  /-- The whole part of NaN, or the remainder of an infinity. -/
  | undefined
  deriving DecidableEq, Repr

namespace Quantity

instance : Inhabited Quantity := ⟨whole 0⟩

instance (n : Nat) : OfNat Quantity n := ⟨whole n⟩

instance : Neg Quantity := ⟨fun q => match q with
  | whole n => whole (-n)
  | real x => real (-x)⟩

abbrev Result := Except ArithmeticError

def floatOfInt (n : Int) : Result Float :=
  let x := Binary.ofInt n
  if x.isInf then .error .overflow else .ok x

def toFloat : Quantity → Result Float
  | whole n => floatOfInt n
  | real x => .ok x

def toReal (q : Quantity) : Result Quantity := real <$> q.toFloat

def combine (f : Int → Int → Int) (g : Float → Float → Float) :
    Quantity → Quantity → Result Quantity
  | whole m, whole n => .ok (whole (f m n))
  | q, r => do
    let x ← q.toFloat
    let y ← r.toFloat
    return real (g x y)

def add : Quantity → Quantity → Result Quantity := combine (· + ·) (· + ·)

def sub : Quantity → Quantity → Result Quantity := combine (· - ·) (· - ·)

def mul : Quantity → Quantity → Result Quantity := combine (· * ·) (· * ·)

/-- The quotient as a float; of two integers it is the exact quotient rounded once. -/
def div : Quantity → Quantity → Result Float
  | whole m, whole n =>
    let x := Binary.ofRatio m.natAbs n.natAbs
    if x.isInf then .error .overflow else .ok (if (m < 0) = (n < 0) then x else -x)
  | q, r => do return (← q.toFloat) / (← r.toFloat)

def abs : Quantity → Quantity
  | whole n => whole n.natAbs
  | real x => real x.abs

def isNaN : Quantity → Bool
  | whole _ => false
  | real x => x.isNaN

def compareWhole (n : Int) (x : Float) : Option Ordering :=
  match Binary.parts? x with
  | some p =>
    some (compare (n * p.ratio.2) (p.signed p.ratio.1))
  | none => if x.isNaN then none else some (if Binary.isNegative x then .gt else .lt)

def order? : Quantity → Quantity → Option Ordering
  | whole m, whole n => some (compare m n)
  | whole m, real y => compareWhole m y
  | real x, whole n => (compareWhole n x).map Ordering.swap
  | real x, real y =>
    if x < y then some .lt else if x > y then some .gt else if x == y then some .eq else none

def lt (q r : Quantity) : Bool := q.order? r == some .lt

def le (q r : Quantity) : Bool := q.order? r == some .lt || q.order? r == some .eq

def eq (q r : Quantity) : Bool := q.order? r == some .eq

def isZero (q : Quantity) : Bool := q.eq 0

/-- The second one only if it is strictly smaller. -/
def min (q r : Quantity) : Quantity := if r.lt q then r else q

/-- The second one only if it is strictly greater. -/
def max (q r : Quantity) : Quantity := if q.lt r then r else q

def wholePart (f : Binary.Parts → Int) : Quantity → Result Int
  | whole n => .ok n
  | real x =>
    match Binary.parts? x with
    | some p => .ok (f p)
    | none => .error (if x.isNaN then .undefined else .overflow)

def floor : Quantity → Result Int := wholePart Binary.Parts.floor

def ceil : Quantity → Result Int := wholePart Binary.Parts.ceil

def truncate : Quantity → Result Int := wholePart Binary.Parts.truncate

def shown (q : Quantity) : Result String := Decimal.general <$> q.toFloat

end Quantity

end Skirmish

import Skirmish.Number.Binary

namespace Skirmish.Decimal

/-- Significant digits without trailing zeros; the first one counts `10 ^ order`. -/
structure Digits where
  coefficient : Nat
  order : Int

def stripZeros : Nat → Nat → Nat
  | 0, n => n
  | fuel + 1, n => if n % 10 = 0 then stripZeros fuel (n / 10) else n

def digitCount (n : Nat) : Nat := (Nat.toDigits 10 n).length

def Digits.ofCoefficient (coefficient : Nat) (unit : Int) : Digits :=
  let count := digitCount coefficient
  ⟨stripZeros count coefficient, unit + count - 1⟩

/-- The quotient of two positive numbers lies from `10 ^ decimalOrder` up to the next power. -/
def decimalOrder (num den : Nat) : Int :=
  let guess : Int := (digitCount num : Int) - digitCount den
  let reached :=
    if 0 ≤ guess then decide (den * Nat.pow 10 guess.toNat ≤ num)
    else decide (den ≤ num * Nat.pow 10 (-guess).toNat)
  if reached then guess else guess - 1

def inUnits (num den : Nat) (unit : Int) : Nat × Nat :=
  if 0 ≤ unit then (num, den * Nat.pow 10 unit.toNat) else (num * Nat.pow 10 (-unit).toNat, den)

def rounded (count num den : Nat) : Digits :=
  let unit := decimalOrder num den - count + 1
  let scaled := inUnits num den unit
  Digits.ofCoefficient (Binary.roundHalfEven scaled.1 scaled.2) unit

/-- The numbers that read as one float: `4 * significand` quarter units, with the two bounds. -/
structure Interval where
  below : Nat
  value : Nat
  above : Nat
  closed : Bool

def Interval.ofParts (p : Binary.Parts) : Interval :=
  let m := 4 * p.significand
  let narrow := p.significand = Nat.pow 2 52 ∧ -1074 < p.exponent
  ⟨if narrow then m - 1 else m - 2, m, m + 2, p.significand % 2 = 0⟩

def Interval.contains (i : Interval) (num den : Nat) : Bool :=
  if i.closed then decide (i.below * den ≤ num ∧ num ≤ i.above * den)
  else decide (i.below * den < num ∧ num < i.above * den)

def Interval.onGrid (i : Interval) (exponent unit : Int) : Option Nat :=
  -- one quarter unit is `2 ^ exponent / 4`; one step of the grid is `10 ^ unit`
  let quarter :=
    if 0 ≤ exponent then (Nat.pow 2 exponent.toNat, 4) else (1, 4 * Nat.pow 2 (-exponent).toNat)
  let step := if 0 ≤ unit then (Nat.pow 10 unit.toNat, 1) else (1, Nat.pow 10 (-unit).toNat)
  let num := step.1 * quarter.2
  let den := step.2 * quarter.1
  let lower := i.value * den / num
  let upper := lower + 1
  let lowerGap := i.value * den - lower * num
  let upperGap := upper * num - i.value * den
  let lowerIn := decide (0 < lower) && i.contains (lower * num) den
  let upperIn := i.contains (upper * num) den
  if lowerIn && upperIn then
    some (if lowerGap < upperGap then lower
      else if upperGap < lowerGap then upper
      else if lower % 2 = 0 then lower else upper)
  else if lowerIn then some lower
  else if upperIn then some upper
  else none

def shortestFrom (i : Interval) (exponent order : Int) : Nat → Nat → Digits
  | 0, count => ⟨0, count⟩
  | fuel + 1, count =>
    let unit := order - count + 1
    match i.onGrid exponent unit with
    | some n => Digits.ofCoefficient n unit
    | none => shortestFrom i exponent order fuel (count + 1)

def shortest (p : Binary.Parts) : Digits :=
  shortestFrom (Interval.ofParts p) p.exponent (decimalOrder p.ratio.1 p.ratio.2) 17 1

structure Layout where
  positionalBelow : Int
  keepPoint : Bool

def zeros (n : Nat) : String := String.ofList (List.replicate n '0')

def exponentText (n : Int) : String :=
  let digits := toString n.natAbs
  (if n < 0 then "e-" else "e+") ++ (if digits.length < 2 then "0" ++ digits else digits)

def Layout.write (l : Layout) (d : Digits) : String :=
  let cs := Nat.toDigits 10 d.coefficient
  if -4 ≤ d.order ∧ d.order < l.positionalBelow then
    if d.order < 0 then "0." ++ zeros (-d.order - 1).toNat ++ String.ofList cs
    else
      let whole := d.order.toNat + 1
      let front := String.ofList (cs.take whole) ++ zeros (whole - cs.length)
      let back := String.ofList (cs.drop whole)
      if back.isEmpty then (if l.keepPoint then front ++ ".0" else front)
      else front ++ "." ++ back
  else
    let back := String.ofList (cs.drop 1)
    String.ofList (cs.take 1) ++ (if back.isEmpty then "" else "." ++ back) ++ exponentText d.order

def write (l : Layout) (digits : Binary.Parts → Digits) (x : Float) : String :=
  match Binary.parts? x with
  | none => if x.isNaN then "nan" else if Binary.isNegative x then "-inf" else "inf"
  | some p =>
    let sign := if p.negative then "-" else ""
    if p.significand = 0 then sign ++ (if l.keepPoint then "0.0" else "0")
    else sign ++ l.write (digits p)

def general (x : Float) : String :=
  write ⟨6, false⟩ (fun p => rounded 6 p.ratio.1 p.ratio.2) x

/-- The shortest text that reads back, positional below `10 ^ 16`; whole numbers keep a point. -/
def exact (x : Float) : String :=
  write ⟨16, true⟩ shortest x

end Skirmish.Decimal

namespace Skirmish.Binary

/-- A finite float: its magnitude is `significand * 2 ^ exponent`. -/
structure Parts where
  negative : Bool
  significand : Nat
  exponent : Int

def parts? (x : Float) : Option Parts :=
  let bits := x.toBits.toNat
  let field : Nat := bits / Nat.pow 2 52 % Nat.pow 2 11
  let fraction := bits % Nat.pow 2 52
  let negative := decide (Nat.pow 2 63 ≤ bits)
  if field = 2047 then none
  else if field = 0 then some ⟨negative, fraction, -1074⟩
  else some ⟨negative, fraction + Nat.pow 2 52, Int.ofNat field - 1075⟩

def isNegative (x : Float) : Bool :=
  decide (Nat.pow 2 63 ≤ x.toBits.toNat)

def infinity : Float := Float.ofBits 0x7FF0000000000000

def nan : Float := Float.ofBits 0x7FF8000000000000

def Parts.ratio (p : Parts) : Nat × Nat :=
  if 0 ≤ p.exponent then (p.significand * Nat.pow 2 p.exponent.toNat, 1)
  else (p.significand, Nat.pow 2 (-p.exponent).toNat)

def Parts.signed (p : Parts) (n : Nat) : Int :=
  if p.negative then -(n : Int) else n

def Parts.truncate (p : Parts) : Int :=
  p.signed (p.ratio.1 / p.ratio.2)

def Parts.floor (p : Parts) : Int :=
  Int.fdiv (p.signed p.ratio.1) p.ratio.2

def Parts.ceil (p : Parts) : Int :=
  -Int.fdiv (-p.signed p.ratio.1) p.ratio.2

def roundHalfEven (num den : Nat) : Nat :=
  let q := num / den
  let r := num % den
  if 2 * r < den then q
  else if den < 2 * r then q + 1
  else if q % 2 = 0 then q
  else q + 1

/-- The quotient of two positive numbers lies from `2 ^ binaryOrder` up to the next power. -/
def binaryOrder (num den : Nat) : Int :=
  let guess : Int := (num.log2 : Int) - den.log2
  let reached :=
    if 0 ≤ guess then decide (den * Nat.pow 2 guess.toNat ≤ num)
    else decide (den ≤ num * Nat.pow 2 (-guess).toNat)
  if reached then guess else guess - 1

/-- The float nearest to a quotient, a half to the even significand; infinite from `2 ^ 1024` on. -/
def ofRatio (num den : Nat) : Float :=
  if num = 0 then 0
  else
    let scale := max (binaryOrder num den - 52) (-1074)
    let significand :=
      if 0 ≤ scale then roundHalfEven num (den * Nat.pow 2 scale.toNat)
      else roundHalfEven (num * Nat.pow 2 (-scale).toNat) den
    let bits := (scale + 1074).toNat * Nat.pow 2 52 + significand
    if 2047 * Nat.pow 2 52 ≤ bits then infinity else Float.ofBits bits.toUInt64

def ofNat (n : Nat) : Float := ofRatio n 1

def ofInt (n : Int) : Float :=
  if n < 0 then -ofNat n.natAbs else ofNat n.natAbs

def ofDecimal (coefficient : Nat) (exponent : Int) : Float :=
  if coefficient = 0 then 0
  else if 400 < exponent then infinity
  else if exponent < -400 - ((coefficient.log2 : Int) + 1) then 0
  else if 0 ≤ exponent then ofNat (coefficient * Nat.pow 10 exponent.toNat)
  else ofRatio coefficient (Nat.pow 10 (-exponent).toNat)

/-- The remainder with the sign of the dividend; by infinity a finite number is its own one. -/
def remainder (x y : Float) : Float :=
  match parts? x, parts? y with
  | some p, some q =>
    let low := min p.exponent q.exponent
    let a := p.significand * Nat.pow 2 (p.exponent - low).toNat
    let b := q.significand * Nat.pow 2 (q.exponent - low).toNat
    let r := a % b
    let magnitude :=
      if 0 ≤ low then ofNat (r * Nat.pow 2 low.toNat) else ofRatio r (Nat.pow 2 (-low).toNat)
    if b = 0 then nan else if p.negative then -magnitude else magnitude
  | some _, none => if y.isNaN then nan else x
  | none, _ => nan

def wholePart? (x : Float) : Option Int :=
  match parts? x with
  | none => none
  | some p => if p.ratio.1 % p.ratio.2 = 0 then some p.truncate else none

end Skirmish.Binary

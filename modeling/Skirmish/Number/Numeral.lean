import Skirmish.Number.Binary
import Skirmish.Text.Blank
import Skirmish.Text.DecimalDigit

namespace Skirmish.Numeral

open Text

def takeSign : List Char → Bool × List Char
  | '-' :: cs => (true, cs)
  | '+' :: cs => (false, cs)
  | cs => (false, cs)

def exponent? : List Char → Option Int
  | [] => some 0
  | e :: cs =>
    let (negative, ds) := takeSign cs
    if (e = 'e' || e = 'E') && !ds.isEmpty && ds.all isAsciiDigit then
      let n : Int := natOfDigits ds
      some (if negative then -n else n)
    else none

def decimal? (cs : List Char) : Option Float :=
  let front := cs.takeWhile isAsciiDigit
  let rest := cs.dropWhile isAsciiDigit
  let (back, tail) :=
    match rest with
    | '.' :: r => (r.takeWhile isAsciiDigit, r.dropWhile isAsciiDigit)
    | r => ([], r)
  if front.isEmpty && back.isEmpty then none
  else (exponent? tail).map fun e =>
    Binary.ofDecimal (natOfDigits (front ++ back)) (e - back.length)

def named? (cs : List Char) : Option Float :=
  match String.ofList (cs.map Char.toLower) with
  | "inf" | "infinity" => some Binary.infinity
  | "nan" => some Binary.nan
  | _ => none

def signed? (cs : List Char) : Option Float :=
  let (negative, rest) := takeSign cs
  ((named? rest).or (decimal? rest)).map fun x => if negative then -x else x

/-- Leaves out the underscores when each of them stands between two digits. -/
def dropUnderscores? (cs : List Char) : Option (List Char) :=
  go false cs
where
  go (afterDigit : Bool) : List Char → Option (List Char)
    | [] => some []
    | '_' :: d :: rest =>
      if afterDigit && isAsciiDigit d then (go true rest).map (d :: ·) else none
    | '_' :: [] => none
    | c :: rest => (go (isAsciiDigit c) rest).map (c :: ·)

/-- The characters of a numeral with digits of every script brought to ASCII. -/
def core (s : String) : List Char :=
  trim isMargin (s.toList.map asciiDigit)

def real? (s : String) : Option Float :=
  dropUnderscores? (core s) >>= signed?

def maxDigits : Nat := 4300

def whole? (s : String) : Option Int := do
  let (negative, ds) := takeSign (← dropUnderscores? (core s))
  if ds.isEmpty || !ds.all isAsciiDigit || maxDigits < ds.length then none
  else
    let n : Int := natOfDigits ds
    some (if negative then -n else n)

end Skirmish.Numeral

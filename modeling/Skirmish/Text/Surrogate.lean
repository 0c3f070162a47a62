namespace Skirmish.Text

def isHighSurrogate (n : Nat) : Bool := 0xD800 ≤ n && n < 0xDC00

def isLowSurrogate (n : Nat) : Bool := 0xDC00 ≤ n && n < 0xE000

def isSurrogate (n : Nat) : Bool := isHighSurrogate n || isLowSurrogate n

def pairedCode (high low : Nat) : Nat := 0x10000 + (high - 0xD800) * 0x400 + (low - 0xDC00)

def replacement : Char := '\uFFFD'

/-- A surrogate leaves a replacement character for each of the three bytes that would encode it. -/
def charsOfCode (n : Nat) : List Char :=
  if isSurrogate n then List.replicate 3 replacement else [Char.ofNat n]

def ofCodes (codes : List Nat) : String := String.ofList (codes.flatMap charsOfCode)

end Skirmish.Text

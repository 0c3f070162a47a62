namespace Skirmish.Text

/-- The ASCII blanks, the information separators, and the spaces and line ends of Unicode. -/
def isBlank (c : Char) : Bool :=
  let n := c.toNat
  (9 ≤ n && n ≤ 13) || (28 ≤ n && n ≤ 32) || n == 0x85 || n == 0xA0 || n == 0x1680 ||
    (0x2000 ≤ n && n ≤ 0x200A) || n == 0x2028 || n == 0x2029 || n == 0x202F || n == 0x205F ||
    n == 0x3000

/-- The blanks that may stand around a numeral: the information separators may not. -/
def isMargin (c : Char) : Bool :=
  isBlank c && !(28 ≤ c.toNat && c.toNat ≤ 31)

def trim (p : Char → Bool) (cs : List Char) : List Char :=
  ((cs.dropWhile p).reverse.dropWhile p).reverse

def splitOn (c : Char) : List Char → List (List Char)
  | [] => [[]]
  | d :: rest =>
    match splitOn c rest with
    | [] => [[d]]
    | part :: parts => if d = c then [] :: part :: parts else (d :: part) :: parts

/-- The parts between single separators; a text without one is its own only part. -/
def parts (c : Char) (s : String) : List String :=
  (splitOn c s.toList).map String.ofList

/-- The words between blanks; the characters read of the first one come in reverse. -/
def wordsFrom : List Char → List Char → List String
  | [], [] => []
  | word, [] => [String.ofList word.reverse]
  | word, c :: cs =>
    if isBlank c then
      (if word.isEmpty then [] else [String.ofList word.reverse]) ++ wordsFrom [] cs
    else wordsFrom (c :: word) cs

def words (s : String) : List String := wordsFrom [] s.toList

end Skirmish.Text

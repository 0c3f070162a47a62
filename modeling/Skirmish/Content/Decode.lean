import Skirmish.Content.Checked
import Skirmish.Document
import Skirmish.Number.Numeral

namespace Skirmish.Content

abbrev Decoder (α : Type) := Document → Checked α

namespace Decode

variable {α : Type}

def text : Decoder String
  | .text s => .ok s
  | .illFormed codes => .ok (Text.ofCodes codes)
  | _ => .fail .notText

def nonEmptyText : Decoder String
  | .text s => if s.isEmpty then .fail .emptyText else .ok s
  | .illFormed _ => .fail .illFormedText
  | _ => .fail .notText

def ofOption (cause : Cause) : Option α → Checked α
  | some a => .ok a
  | none => .fail cause

/-- Leaves out underscores unless one stands at an end or beside another. -/
def withoutUnderscores? (cs : List Char) : Option (List Char) :=
  let alone := (Text.splitOn '_' cs).all fun part => !part.isEmpty
  if cs.contains '_' && alone then some (cs.filter (· ≠ '_')) else none

def realNumeral? (s : String) : Option Float :=
  (Numeral.signed? (Text.trim Text.isMargin s.toList)).or
    (withoutUnderscores? s.toList >>= Numeral.signed?)

def real : Decoder Quantity
  | .number q =>
    match q.toReal with
    | .ok x => .ok x
    | .error _ => .fail .notNumber
  | .bool b => .ok (.real (if b then 1 else 0))
  | .text s => ofOption .unreadableNumber ((realNumeral? s).map Quantity.real)
  | .illFormed _ => .fail .illFormedText
  | _ => .fail .notNumber

def plainInteger? (cs : List Char) : Option Int :=
  let (negative, ds) := match cs with
    | '-' :: ds => (true, ds)
    | ds => (false, ds)
  let leadingZero := match ds with
    | '0' :: _ :: _ => true
    | _ => false
  if ds.isEmpty || leadingZero || !ds.all Text.isAsciiDigit then none
  else
    let n : Int := Text.natOfDigits ds
    some (if negative then -n else n)

/-- What follows the zeros in front, at least one digit staying before a point. Underscores among
the zeros go with them, and a minus sign may stand right after them. -/
def afterZeros? : List Char → Option (List Char)
  | '0' :: cs => go '0' cs
  | c :: cs => if '1' ≤ c && c ≤ '9' then some (c :: cs) else none
  | [] => none
where
  go (last : Char) : List Char → Option (List Char)
    | [] => some [last]
    | c :: cs =>
      if c = '0' || c = '_' then go c cs
      else if ('1' ≤ c && c ≤ '9') || c = '-' then some (c :: cs)
      else if c = '.' then some (last :: c :: cs)
      else none

def withoutZeros? : List Char → Option (List Char)
  | '-' :: cs => (afterZeros? cs).map ('-' :: ·)
  | cs => afterZeros? cs

def beforePoint? (cs : List Char) : Option (List Char) :=
  match cs.dropWhile (· ≠ '.') with
  | [] => some cs
  | _ :: zeros =>
    if !zeros.isEmpty && zeros.all (· = '0') then some (cs.takeWhile (· ≠ '.')) else none

def withoutPlus? : List Char → Option (List Char)
  | '+' :: '-' :: _ => none
  | '+' :: cs => some cs
  | cs => some cs

def cleanedInteger? (cs : List Char) : Option (List Char) := do
  let cs ← withoutPlus? cs
  let cs ← withoutZeros? cs
  let cs ← beforePoint? cs
  return (withoutUnderscores? cs).getD cs

def integerNumeral? (cs : List Char) : Option Int :=
  (plainInteger? cs).or (cleanedInteger? cs >>= plainInteger?)

def integerOfText (s : String) : Checked Int :=
  let cs := Text.trim Text.isMargin s.toList
  if Numeral.maxDigits < (String.ofList cs).utf8ByteSize then .fail .integerTooLarge
  else ofOption .unreadableInteger (integerNumeral? cs)

/-- A float is an integer only if it is whole and of less than 64 bits. -/
def integerOfReal (x : Float) : Checked Int :=
  if !x.isFinite then .fail .notFinite
  else
    match Binary.wholePart? x with
    | none => .fail .fractional
    | some n => if -Int.pow 2 63 < n && n < Int.pow 2 63 then .ok n else .fail .integerTooLarge

def integer : Decoder Int
  | .number (.whole n) => .ok n
  | .number (.real x) => integerOfReal x
  | .bool b => .ok (if b then 1 else 0)
  | .text s => integerOfText s
  | .illFormed _ => .fail .illFormedText
  | _ => .fail .notInteger

def trueWords : List String := ["1", "t", "y", "true", "yes", "on"]

def falseWords : List String := ["0", "f", "n", "false", "no", "off"]

def boolOfText (s : String) : Checked Bool :=
  let word := String.ofList (s.toList.map Char.toLower)
  if trueWords.contains word then .ok true
  else if falseWords.contains word then .ok false
  else .fail .unreadableBool

def boolOfInt (n : Int) : Checked Bool :=
  if n = 0 then .ok false else if n = 1 then .ok true else .fail .unreadableBool

def bool : Decoder Bool
  | .bool b => .ok b
  | .text s => boolOfText s
  | .illFormed _ => .fail .illFormedText
  | .number (.whole n) =>
    if -Int.pow 2 63 ≤ n && n < Int.pow 2 63 then boolOfInt n else .fail .notBool
  | .number (.real x) =>
    match integerOfReal x with
    | .ok n => boolOfInt n
    | .wrong _ => .fail .notBool
  | _ => .fail .notBool

def oneOf (names : List String) (read : String → α) : Decoder α
  | .text s => if names.contains s then .ok (read s) else .fail (.notOneOf names)
  | .illFormed _ => .fail .illFormedText
  | _ => .fail (.notOneOf names)

def nullable (d : Decoder α) : Decoder (Option α)
  | .null => .ok none
  | v => some <$> d v

def indexed (d : Decoder α) : Nat → List Document → List (Checked α)
  | _, [] => []
  | i, v :: vs => (d v).under (toString i) :: indexed d (i + 1) vs

def list (d : Decoder α) : Decoder (List α)
  | .list items => .all (indexed d 0 items)
  | _ => .fail .notList

def nonEmptyList (d : Decoder α) : Decoder (List α)
  | .list [] => .fail .emptyList
  | v => list d v

def entry (d : Decoder α) (e : String × Document) : Checked (String × α) :=
  (Prod.mk e.1) <$> (d e.2).under e.1

def dictionary (d : Decoder α) : Decoder (Table α)
  | .object fields => Table.ofList <$> .all (fields.map (entry d))
  | _ => .fail .notDictionary

abbrev Fields := List (String × Document)

def object (className : String) (read : Fields → Checked α) : Decoder α
  | .object fields => read fields
  | _ => .fail (.notObject className)

def camelCase (s : String) : String :=
  match Text.parts '_' s with
  | [] => ""
  | first :: rest => first ++ String.join (rest.map String.capitalize)

/-- The value under a name in joined spelling or else as it stands, with the spelling found. -/
def find? (name : String) (fields : Fields) : Option (String × Document) :=
  match Table.lookup (camelCase name) fields with
  | some v => some (camelCase name, v)
  | none => (Table.lookup name fields).map (Prod.mk name)

def required (name : String) (d : Decoder α) (fields : Fields) : Checked α :=
  match find? name fields with
  | none => (Checked.fail .required).under (camelCase name)
  | some (key, v) => (d v).under key

def withDefault (name : String) (d : Decoder α) (default : α) (fields : Fields) : Checked α :=
  match find? name fields with
  | none => .ok default
  | some (key, v) => (d v).under key

def optional (name : String) (d : Decoder α) (fields : Fields) : Checked (Option α) :=
  withDefault name (nullable d) none fields

def listField (name : String) (d : Decoder α) (fields : Fields) : Checked (List α) :=
  withDefault name (list d) [] fields

def dictionaryField (name : String) (d : Decoder α) (fields : Fields) : Checked (Table α) :=
  withDefault name (dictionary d) {} fields

/-- A name that may be left out, null or empty: then the id serves. -/
def nameOr (id : String) (name : Option String) : String :=
  match name with
  | none | some "" => id
  | some s => s

end Decode

end Skirmish.Content

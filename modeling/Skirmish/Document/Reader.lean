import Skirmish.Document
import Skirmish.Number.Numeral

namespace Skirmish.Document

inductive ReadError where
  | malformed
  | integerTooLong
  deriving DecidableEq, Repr

abbrev Rest (α : Type) := α × List Char

def isJsonBlank (c : Char) : Bool := c = ' ' || c = '\t' || c = '\n' || c = '\r'

def skipBlanks (cs : List Char) : List Char := cs.dropWhile isJsonBlank

def hexValue? (c : Char) : Option Nat :=
  if '0' ≤ c && c ≤ '9' then some (c.toNat - 48)
  else if 'a' ≤ c && c ≤ 'f' then some (c.toNat - 87)
  else if 'A' ≤ c && c ≤ 'F' then some (c.toNat - 55)
  else none

def takeHex? : List Char → Option (Nat × List Char)
  | a :: b :: c :: d :: rest => do
    return (((((← hexValue? a) * 16 + (← hexValue? b)) * 16 + (← hexValue? c)) * 16
      + (← hexValue? d)), rest)
  | _ => none

/-- The code point after a backslash and a letter u; two surrogates of a pair make one. -/
def takeCode? (cs : List Char) : Option (Nat × List Char) := do
  let (n, rest) ← takeHex? cs
  match rest with
  | '\\' :: 'u' :: more =>
    if Text.isHighSurrogate n then
      let (m, rest') ← takeHex? more
      if Text.isLowSurrogate m then return (Text.pairedCode n m, rest') else return (n, rest)
    else return (n, rest)
  | _ => return (n, rest)

def escape? : Char → Option Char
  | '"' => some '"'
  | '\\' => some '\\'
  | '/' => some '/'
  | 'b' => some '\x08'
  | 'f' => some '\x0c'
  | 'n' => some '\n'
  | 'r' => some '\r'
  | 't' => some '\t'
  | _ => none

/-- The code points up to the closing quote, gathered in reverse. -/
def readText : Nat → List Nat → List Char → Except ReadError (Rest (List Nat))
  | 0, _, _ => .error .malformed
  | fuel + 1, seen, cs =>
    match cs with
    | '"' :: rest => .ok (seen.reverse, rest)
    | '\\' :: 'u' :: rest =>
      match takeCode? rest with
      | some (n, more) => readText fuel (n :: seen) more
      | none => .error .malformed
    | '\\' :: c :: rest =>
      match escape? c with
      | some d => readText fuel (d.toNat :: seen) rest
      | none => .error .malformed
    | c :: rest =>
      if c.toNat < 32 || c = '\\' then .error .malformed else readText fuel (c.toNat :: seen) rest
    | [] => .error .malformed

def takeDigits (cs : List Char) : List Char × List Char :=
  (cs.takeWhile Text.isAsciiDigit, cs.dropWhile Text.isAsciiDigit)

def takeFraction (cs : List Char) : List Char × List Char :=
  match cs with
  | '.' :: rest =>
    let (ds, more) := takeDigits rest
    if ds.isEmpty then ([], cs) else ('.' :: ds, more)
  | _ => ([], cs)

def takeExponent (cs : List Char) : List Char × List Char :=
  match cs with
  | e :: rest =>
    if e = 'e' || e = 'E' then
      let sign := match rest with
        | '-' :: _ => ['-']
        | '+' :: _ => ['+']
        | _ => []
      let (ds, more) := takeDigits (rest.drop sign.length)
      if ds.isEmpty then ([], cs) else (e :: sign ++ ds, more)
    else ([], cs)
  | [] => ([], cs)

/-- A numeral without sign; a zero in front stands alone. -/
def readNumber (negative : Bool) (cs : List Char) : Except ReadError (Rest Document) :=
  let (whole, rest) := match cs with
    | '0' :: rest => (['0'], rest)
    | cs => takeDigits cs
  let (fraction, rest) := takeFraction rest
  let (power, rest) := takeExponent rest
  if whole.isEmpty then .error .malformed
  else if fraction.isEmpty && power.isEmpty then
    if Numeral.maxDigits < whole.length then .error .integerTooLong
    else
      let n : Int := Text.natOfDigits whole
      .ok (ofInt (if negative then -n else n), rest)
  else
    match Numeral.decimal? (whole ++ fraction ++ power) with
    | some x => .ok (number (.real (if negative then -x else x)), rest)
    | none => .error .malformed

def word? (w : String) (cs : List Char) : Option (List Char) :=
  if w.toList.isPrefixOf cs then some (cs.drop w.length) else none

def words : List (String × Document) := [
  ("null", null), ("true", bool true), ("false", bool false),
  ("NaN", number (.real Binary.nan)), ("Infinity", number (.real Binary.infinity)),
  ("-Infinity", number (.real (-Binary.infinity)))]

def readWord? (cs : List Char) : Option (Document × List Char) :=
  words.findSome? fun w => (word? w.1 cs).map fun rest => (w.2, rest)

def readScalar (cs : List Char) : Except ReadError (Rest Document) :=
  match readWord? cs with
  | some r => .ok r
  | none =>
    match cs with
    | '-' :: rest => readNumber true rest
    | _ => readNumber false cs

/-- Two ill-formed keys stay two fields even where their texts agree. -/
def namedFields (fields : List (List Nat × Document)) : List (String × Document) :=
  fields.map fun f => (Text.ofCodes f.1, f.2)

mutual

def readValue : Nat → List Char → Except ReadError (Rest Document)
  | 0, _ => .error .malformed
  | fuel + 1, cs =>
    match cs with
    | '"' :: rest => do
      let (codes, more) ← readText (rest.length + 1) [] rest
      return (ofCodes codes, more)
    | '[' :: rest =>
      match skipBlanks rest with
      | ']' :: more => .ok (list [], more)
      | more => readItems fuel [] more
    | '{' :: rest =>
      match skipBlanks rest with
      | '}' :: more => .ok (object [], more)
      | more => readFields fuel [] more
    | _ => readScalar cs

def readItems : Nat → List Document → List Char → Except ReadError (Rest Document)
  | 0, _, _ => .error .malformed
  | fuel + 1, seen, cs => do
    let (d, rest) ← readValue fuel cs
    match skipBlanks rest with
    | ',' :: more => readItems fuel (d :: seen) (skipBlanks more)
    | ']' :: more => return (list (d :: seen).reverse, more)
    | _ => .error .malformed

def readFields :
    Nat → List (List Nat × Document) → List Char → Except ReadError (Rest Document)
  | 0, _, _ => .error .malformed
  | fuel + 1, seen, cs =>
    match cs with
    | '"' :: rest => do
      let (k, more) ← readText (rest.length + 1) [] rest
      match skipBlanks more with
      | ':' :: more => do
        let (d, rest) ← readValue fuel (skipBlanks more)
        let fields := Table.put k d seen
        match skipBlanks rest with
        | ',' :: more => readFields fuel fields (skipBlanks more)
        | '}' :: more => return (object (namedFields fields), more)
        | _ => .error .malformed
      | _ => .error .malformed
    | _ => .error .malformed

end

def read (s : String) : Except ReadError Document := do
  let cs := skipBlanks s.toList
  let (d, rest) ← readValue (2 * cs.length + 2) cs
  if (skipBlanks rest).isEmpty then return d else .error .malformed

end Skirmish.Document

import Skirmish.Formula.Error
import Skirmish.Text.Blank
import Skirmish.Text.DecimalDigit

namespace Skirmish.Formula

open Text

def isNumberChar (c : Char) : Bool := isAsciiDigit c || c = '.'

def isNameStart (c : Char) : Bool :=
  ('a' ≤ c && c ≤ 'z') || ('A' ≤ c && c ≤ 'Z') || c = '_'

def isNameChar (c : Char) : Bool := isNameStart c || isAsciiDigit c || c = '.'

def pairKind? (c d : Char) : Option Token.Kind :=
  match c, d with
  | '<', '=' | '>', '=' | '=', '=' | '!', '=' => some .comparator
  | '&', '&' | '|', '|' => some .logic
  | _, _ => none

def singleKind? (c : Char) : Option Token.Kind :=
  match c with
  | '+' | '-' | '*' | '/' | '%' => some .operator
  | '<' | '>' => some .comparator
  | '!' => some .logic
  | '(' => some .leftParen
  | ')' => some .rightParen
  | ',' => some .comma
  | '?' => some .question
  | ':' => some .colon
  | _ => none

def startsNumber (c : Char) (cs : List Char) : Bool :=
  isAsciiDigit c || (c = '.' && (cs.head?.map isAsciiDigit).getD false)

def lexeme (c : Char) (cs : List Char) : Except Fault (Token.Kind × Nat) :=
  if startsNumber c cs then
    let run := c :: cs.takeWhile isNumberChar
    if 1 < run.count '.' then .error (.malformedNumber (String.ofList run))
    else .ok (.number, run.length - 1)
  else if isNameStart c then .ok (.identifier, (cs.takeWhile isNameChar).length)
  else
    match cs.head?.bind (pairKind? c) with
    | some kind => .ok (kind, 1)
    | none =>
      match singleKind? c with
      | some kind => .ok (kind, 0)
      | none => .error (.strayCharacter c)

/-- The tokens of a rest of the text; its first characters, as many as are covered, belong to a
token that has been cut already. -/
def scanFrom (position covered : Nat) : List Char → Result (List Token)
  | [] => .ok [⟨.finish, "", position⟩]
  | c :: cs =>
    match covered with
    | n + 1 => scanFrom (position + 1) n cs
    | 0 =>
      if isBlank c then scanFrom (position + 1) 0 cs
      else
        match lexeme c cs with
        | .error fault => .error (.malformed fault position)
        | .ok (kind, more) => do
          let rest ← scanFrom (position + 1) more cs
          return ⟨kind, String.ofList (c :: cs.take more), position⟩ :: rest

def tokenize (formula : String) : Result (List Token) :=
  scanFrom 0 0 formula.toList

end Skirmish.Formula

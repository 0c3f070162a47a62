import Skirmish.Number.Quantity
import Skirmish.Table
import Skirmish.Text.Quoted

namespace Skirmish

inductive Document where
  | null
  | bool (b : Bool)
  | number (q : Quantity)
  | text (s : String)
  | illFormed (codes : List Nat)
  | list (items : List Document)
  | object (fields : List (String × Document))

namespace Document

instance : Inhabited Document := ⟨null⟩

def get? (d : Document) (k : String) : Option Document :=
  match d with
  | object fields => Table.lookup k fields
  | _ => none

def isObject : Document → Bool
  | object _ => true
  | _ => false

def ofCodes (codes : List Nat) : Document :=
  if codes.any Text.isSurrogate then illFormed codes else text (Text.ofCodes codes)

def ofInt (n : Int) : Document := number (.whole n)

def numberText : Quantity → String
  | .whole n => toString n
  | .real x => Decimal.exact x

mutual

def inner : Document → String
  | null => "None"
  | bool b => if b then "True" else "False"
  | number q => numberText q
  | text s => Text.quoted s
  | illFormed codes => Text.quotedCodes codes
  | list items => "[" ++ String.intercalate ", " (innerItems items) ++ "]"
  | object fields => "\x7b" ++ String.intercalate ", " (innerFields fields) ++ "\x7d"

def innerItems : List Document → List String
  | [] => []
  | d :: ds => inner d :: innerItems ds

def innerFields : List (String × Document) → List String
  | [] => []
  | (k, d) :: fs => (Text.quoted k ++ ": " ++ inner d) :: innerFields fs

end

def shown : Document → String
  | text s => s
  | illFormed codes => Text.ofCodes codes
  | d => inner d

end Document

end Skirmish

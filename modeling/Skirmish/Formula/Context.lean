import Skirmish.Formula.Error
import Skirmish.Table
import Skirmish.Text.Blank

namespace Skirmish.Formula

/-- `other` is a value that is neither a number nor a scope. -/
inductive Context where
  | number (q : Quantity)
  | scope (entries : List (String × Context))
  | other

namespace Context

instance : Inhabited Context := ⟨scope []⟩

def ofBool (b : Bool) : Context := number (if b then 1 else 0)

def ofNat (n : Nat) : Context := number (.whole n)

def ofBlock (block : Table Quantity) : Context :=
  scope (block.entries.map fun e => (e.1, number e.2))

def at? (c : Context) : List String → Option Context
  | [] => some c
  | part :: rest =>
    match c with
    | scope entries => (Table.lookup part entries).bind fun inner => inner.at? rest
    | _ => none

def resolve (c : Context) (name : String) : Result Float :=
  match c.at? (Text.parts '.' name) with
  | some (number q) => arithmetic q.toFloat
  | _ => .error (.unknownVariable name)

end Context

end Skirmish.Formula

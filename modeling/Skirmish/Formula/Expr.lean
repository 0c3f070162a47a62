namespace Skirmish.Formula

/-- The binary operators; `other` is a symbol that has no meaning. -/
inductive BinaryOp where
  | add | sub | mul | div | mod
  | lt | gt | le | ge | eq | ne
  | and | or
  | other (symbol : String)
  deriving DecidableEq, Repr

namespace BinaryOp

def symbol : BinaryOp → String
  | add => "+"
  | sub => "-"
  | mul => "*"
  | div => "/"
  | mod => "%"
  | lt => "<"
  | gt => ">"
  | le => "<="
  | ge => ">="
  | eq => "=="
  | ne => "!="
  | and => "&&"
  | or => "||"
  | other s => s

def all : List BinaryOp := [add, sub, mul, div, mod, lt, gt, le, ge, eq, ne, and, or]

def ofSymbol (s : String) : BinaryOp :=
  (all.find? fun op => op.symbol = s).getD (other s)

end BinaryOp

inductive UnaryOp where
  | neg | not
  | other (symbol : String)
  deriving DecidableEq, Repr

namespace UnaryOp

def symbol : UnaryOp → String
  | neg => "-"
  | not => "!"
  | other s => s

def ofSymbol : String → UnaryOp
  | "-" => neg
  | "!" => not
  | s => other s

end UnaryOp

/-- `stray` is a text where an expression should stand; it has no value. -/
inductive Expr where
  | number (x : Float)
  | name (path : String)
  | binary (op : BinaryOp) (left right : Expr)
  | unary (op : UnaryOp) (operand : Expr)
  | ternary (condition ifTrue ifFalse : Expr)
  | call (function : String) (args : List Expr)
  | stray (text : String)

namespace Expr

instance : Inhabited Expr := ⟨number 0⟩

mutual

def names : Expr → List String
  | number _ => []
  | name path => [path]
  | binary _ l r => l.names ++ r.names
  | unary _ e => e.names
  | ternary c t f => c.names ++ t.names ++ f.names
  | call _ args => namesOf args
  | stray _ => []

def namesOf : List Expr → List String
  | [] => []
  | e :: es => e.names ++ namesOf es

end

def distinctNames (e : Expr) : List String :=
  e.names.foldl (fun found n => if found.contains n then found else found ++ [n]) []

end Expr

end Skirmish.Formula

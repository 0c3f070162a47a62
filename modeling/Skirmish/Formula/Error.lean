import Skirmish.Formula.Token
import Skirmish.Number.Quantity
import Skirmish.Text.Quoted

namespace Skirmish.Formula

inductive Fault where
  | strayCharacter (c : Char)
  | malformedNumber (lexeme : String)
  | expected (wanted got : Token.Kind)
  | unexpected (got : Token.Kind)
  deriving DecidableEq, Repr

def Fault.message (f : Fault) (position : Nat) : String :=
  let place := " at position " ++ toString position
  match f with
  | strayCharacter c => "Unexpected character '" ++ c.toString ++ "'" ++ place
  | malformedNumber lexeme => "Malformed number '" ++ lexeme ++ "'" ++ place
  | expected wanted got => "Expected " ++ wanted.name ++ " but got " ++ got.name ++ place
  | unexpected got => "Unexpected token " ++ got.name ++ place

inductive Error where
  | malformed (fault : Fault) (position : Nat)
  | unknownVariable (name : String)
  | unknownFunction (name : String)
  | divisionByZero
  | moduloByZero
  | unknownOperator (symbol : String)
  | unknownUnary (symbol : String)
  | invalidArguments (function : String)
  | unknownNode (text : String)
  /-- Outside the formula language: a context value or a remainder that is no float. -/
  | arithmetic (cause : ArithmeticError)
  /-- The nesting bound of the reader was too small. -/
  | tooDeep
  deriving DecidableEq, Repr

namespace Error

def message : Error → String
  | malformed fault position => fault.message position
  | unknownVariable name => "Unknown variable: " ++ name
  | unknownFunction name => "Unknown function: " ++ name
  | divisionByZero => "Division by zero"
  | moduloByZero => "Modulo by zero"
  | unknownOperator symbol => "Unknown operator: " ++ symbol
  | unknownUnary symbol => "Unknown unary operator: " ++ symbol
  | invalidArguments function => "Invalid arguments for " ++ function ++ "()"
  | unknownNode text => "Unknown node: " ++ Text.quoted text
  | arithmetic .overflow => "integer too large for a float"
  | arithmetic .undefined => "no such number"
  | tooDeep => "nested too deeply"

/-- Whether the formula itself is at fault: such an error counts as a formula without a value. -/
def isFormulaFault : Error → Bool
  | arithmetic _ => false
  | _ => true

end Error

abbrev Result := Except Error

def arithmetic {α : Type} (r : Except ArithmeticError α) : Result α :=
  r.mapError .arithmetic

end Skirmish.Formula

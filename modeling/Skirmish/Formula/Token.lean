namespace Skirmish.Formula

inductive Token.Kind where
  | number | identifier | operator | comparator | logic
  | leftParen | rightParen | comma | question | colon | finish
  deriving DecidableEq, Repr

namespace Token.Kind

def name : Kind → String
  | number => "NUMBER"
  | identifier => "IDENTIFIER"
  | operator => "OPERATOR"
  | comparator => "COMPARATOR"
  | logic => "LOGIC"
  | leftParen => "LPAREN"
  | rightParen => "RPAREN"
  | comma => "COMMA"
  | question => "TERNARY_Q"
  | colon => "TERNARY_COLON"
  | finish => "EOF"

end Token.Kind

structure Token where
  kind : Token.Kind
  lexeme : String
  position : Nat
  deriving DecidableEq, Repr

end Skirmish.Formula

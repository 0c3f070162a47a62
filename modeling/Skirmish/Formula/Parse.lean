import Skirmish.Formula.Scan
import Skirmish.Formula.Expr
import Skirmish.Number.Numeral

namespace Skirmish.Formula

inductive Level where
  | or | and | comparison | additive | multiplicative
  deriving DecidableEq, Repr

namespace Level

def tighter? : Level → Option Level
  | or => some and
  | and => some comparison
  | comparison => some additive
  | additive => some multiplicative
  | multiplicative => none

def accepts (l : Level) (t : Token) : Bool :=
  match l with
  | or => t.kind = .logic && t.lexeme = "||"
  | and => t.kind = .logic && t.lexeme = "&&"
  | comparison => t.kind = .comparator
  | additive => t.kind = .operator && (t.lexeme = "+" || t.lexeme = "-")
  | multiplicative => t.kind = .operator && (t.lexeme = "*" || t.lexeme = "/" || t.lexeme = "%")

end Level

namespace Token

def isSign (t : Token) : Bool :=
  (t.kind = .operator && t.lexeme = "-") || (t.kind = .logic && t.lexeme = "!")

def value (t : Token) : Float := (Numeral.decimal? t.lexeme.toList).getD 0

end Token

/-- The token to be read next; an empty list counts as the end of the text. -/
def current : List Token → Token
  | [] => ⟨.finish, "", 0⟩
  | t :: _ => t

def unexpected {α : Type} (ts : List Token) : Result α :=
  .error (.malformed (.unexpected (current ts).kind) (current ts).position)

def expect (kind : Token.Kind) (ts : List Token) : Result (List Token) :=
  if (current ts).kind = kind then .ok ts.tail
  else .error (.malformed (.expected kind (current ts).kind) (current ts).position)

mutual

def ternary : Nat → List Token → Result (Expr × List Token)
  | 0, _ => .error .tooDeep
  | fuel + 1, ts => do
    let (condition, rest) ← binary fuel .or ts
    if (current rest).kind = .question then
      let (ifTrue, rest) ← ternary fuel rest.tail
      let rest ← expect .colon rest
      let (ifFalse, rest) ← ternary fuel rest
      return (.ternary condition ifTrue ifFalse, rest)
    else return (condition, rest)

def binary : Nat → Level → List Token → Result (Expr × List Token)
  | 0, _, _ => .error .tooDeep
  | fuel + 1, level, ts => do
    let (left, rest) ← operand fuel level ts
    chain fuel level left rest

def operand : Nat → Level → List Token → Result (Expr × List Token)
  | 0, _, _ => .error .tooDeep
  | fuel + 1, level, ts =>
    match level.tighter? with
    | some tighter => binary fuel tighter ts
    | none => unary fuel ts

def chain : Nat → Level → Expr → List Token → Result (Expr × List Token)
  | 0, _, _, _ => .error .tooDeep
  | fuel + 1, level, left, ts =>
    if level.accepts (current ts) then do
      let (right, rest) ← operand fuel level ts.tail
      chain fuel level (.binary (.ofSymbol (current ts).lexeme) left right) rest
    else .ok (left, ts)

def unary : Nat → List Token → Result (Expr × List Token)
  | 0, _ => .error .tooDeep
  | fuel + 1, ts =>
    if (current ts).isSign then do
      let (e, rest) ← unary fuel ts.tail
      return (.unary (.ofSymbol (current ts).lexeme) e, rest)
    else primary fuel ts

def primary : Nat → List Token → Result (Expr × List Token)
  | 0, _ => .error .tooDeep
  | fuel + 1, ts =>
    match (current ts).kind with
    | .number => .ok (.number (current ts).value, ts.tail)
    | .identifier =>
      if (current ts.tail).kind = .leftParen then do
        let (args, rest) ← arguments fuel ts.tail.tail
        return (.call (current ts).lexeme args, rest)
      else .ok (.name (current ts).lexeme, ts.tail)
    | .leftParen => do
      let (e, rest) ← ternary fuel ts.tail
      return (e, ← expect .rightParen rest)
    | _ => unexpected ts

def arguments : Nat → List Token → Result (List Expr × List Token)
  | 0, _ => .error .tooDeep
  | fuel + 1, ts =>
    if (current ts).kind = .rightParen then .ok ([], ts.tail)
    else do
      let (first, rest) ← ternary fuel ts
      let (others, rest) ← moreArguments fuel rest
      return (first :: others, rest)

def moreArguments : Nat → List Token → Result (List Expr × List Token)
  | 0, _ => .error .tooDeep
  | fuel + 1, ts =>
    if (current ts).kind = .comma then do
      let (first, rest) ← ternary fuel ts.tail
      let (others, rest) ← moreArguments fuel rest
      return (first :: others, rest)
    else return ([], ← expect .rightParen ts)

end

/-- No path of calls takes more than this many steps from one token to the next. -/
def stepsPerToken : Nat := 16

def parseTokens (ts : List Token) : Result Expr := do
  let (e, rest) ← ternary (stepsPerToken * (ts.length + 1)) ts
  let _ ← expect .finish rest
  return e

def parse (formula : String) : Result Expr := do
  parseTokens (← tokenize formula)

def problem? (formula : String) : Option String :=
  match parse formula with
  | .ok _ => none
  | .error e => some e.message

end Skirmish.Formula

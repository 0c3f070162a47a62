import Skirmish.Proofs.Formula.Grammar

namespace Skirmish.Formula

structure Lexeme (kind : Token.Kind) where
  chars : List Char
  isLexeme : IsLexeme kind chars

namespace Lexeme

def text {kind : Token.Kind} (l : Lexeme kind) : String := String.ofList l.chars

def value (l : Lexeme .number) : Float :=
  (Numeral.decimal? l.chars).get l.isLexeme.decimal?_isSome

end Lexeme

structure Word where
  kind : Token.Kind
  lexeme : Lexeme kind

namespace Word

def leftParen : Word := ⟨.leftParen, ['('], .single rfl⟩

def rightParen : Word := ⟨.rightParen, [')'], .single rfl⟩

def comma : Word := ⟨.comma, [','], .single rfl⟩

def question : Word := ⟨.question, ['?'], .single rfl⟩

def colon : Word := ⟨.colon, [':'], .single rfl⟩

end Word

structure Operator where
  level : Level
  op : BinaryOp
  mem : op ∈ level.operators

theorem Level.isLexeme_symbol {l : Level} {op : BinaryOp} (h : op ∈ l.operators) :
    IsLexeme l.kind op.symbol.toList := by
  cases l <;> simp only [operators, List.mem_cons, List.not_mem_nil, or_false] at h
  all_goals
    rcases h with rfl | rfl | rfl | rfl | rfl | rfl <;> first
      | exact .single rfl
      | exact .pair rfl

def Operator.word (o : Operator) : Word :=
  ⟨o.level.kind, o.op.symbol.toList, Level.isLexeme_symbol o.mem⟩

theorem Level.eq_of_mem_operators {l m : Level} {op : BinaryOp} (hl : op ∈ l.operators)
    (hm : op ∈ m.operators) : l = m := by
  have h : l ≠ m → ∀ op ∈ l.operators, op ∉ m.operators := by cases l <;> cases m <;> decide
  by_contra hne
  exact h hne op hl hm

inductive Sign where
  | neg | not

namespace Sign

def op : Sign → UnaryOp
  | neg => .neg
  | not => .not

def word : Sign → Word
  | neg => ⟨.operator, ['-'], .single rfl⟩
  | not => ⟨.logic, ['!'], .single rfl⟩

end Sign

/-- An expression with its leaves as they are written. -/
inductive Surface where
  | number (literal : Lexeme .number)
  | name (path : Lexeme .identifier)
  | unary (sign : Sign) (operand : Surface)
  | binary (operator : Operator) (left right : Surface)
  | ternary (condition ifTrue ifFalse : Surface)
  | call (function : Lexeme .identifier) (args : List Surface)

namespace Phrase

def rank : Phrase → Nat
  | ternary => 0
  | binary .or => 1
  | binary .and => 2
  | binary .comparison => 3
  | binary .additive => 4
  | binary .multiplicative => 5
  | unary => 6
  | primary => 7

def tighter : Phrase → Phrase
  | ternary => binary .or
  | binary l => l.operand
  | unary | primary => primary

/-- The words of a phrase in the place of another: a phrase that is looser than its place stands in
parentheses. -/
def enclose (place own : Phrase) (ws : List Word) : List Word :=
  if place.rank ≤ own.rank then ws else .leftParen :: (ws ++ [.rightParen])

end Phrase

namespace Surface

def phrase : Surface → Phrase
  | number _ | name _ | call .. => .primary
  | unary .. => .unary
  | binary o .. => .binary o.level
  | ternary .. => .ternary

@[simp] theorem phrase_binary (o : Operator) (left right : Surface) :
    (binary o left right).phrase = .binary o.level :=
  rfl

mutual

def expr : Surface → Expr
  | number l => .number l.value
  | name n => .name n.text
  | unary s d => .unary s.op d.expr
  | binary o l r => .binary o.op l.expr r.expr
  | ternary c t f => .ternary c.expr t.expr f.expr
  | call f args => .call f.text (exprs args)

def exprs : List Surface → List Expr
  | [] => []
  | d :: ds => d.expr :: exprs ds

end

mutual

def words : Surface → List Word
  | number l => [⟨_, l⟩]
  | name n => [⟨_, n⟩]
  | unary s d => s.word :: Phrase.unary.enclose d.phrase d.words
  | binary o l r =>
      (Phrase.binary o.level).enclose l.phrase l.words ++
        o.word :: o.level.operand.enclose r.phrase r.words
  | ternary c t f =>
      (Phrase.binary .or).enclose c.phrase c.words ++
        .question :: (t.words ++ .colon :: f.words)
  | call f args => ⟨_, f⟩ :: .leftParen :: (itemWords args ++ [.rightParen])

def itemWords : List Surface → List Word
  | [] => []
  | [d] => d.words
  | d :: e :: ds => d.words ++ .comma :: itemWords (e :: ds)

end

end Surface

structure Gap where
  chars : List Char
  ne_nil : chars ≠ []
  isBlank : ∀ c ∈ chars, Text.isBlank c

def spread (gap : Nat → Gap) : List Word → List Char
  | [] => []
  | [w] => w.lexeme.chars
  | w :: v :: ws => w.lexeme.chars ++ (gap 0).chars ++ spread (fun n => gap (n + 1)) (v :: ws)

def Surface.print (d : Surface) (gap : Nat → Gap) : String := String.ofList (spread gap d.words)

end Skirmish.Formula

import Skirmish.Formula.Parse
import Skirmish.Proofs.Formula.Tokens

namespace Skirmish.Formula

inductive Phrase where
  | ternary
  | binary (level : Level)
  | unary
  | primary

namespace Level

def operand : Level → Phrase
  | or => .binary .and
  | and => .binary .comparison
  | comparison => .binary .additive
  | additive => .binary .multiplicative
  | multiplicative => .unary

def kind : Level → Token.Kind
  | or | and => .logic
  | comparison => .comparator
  | additive | multiplicative => .operator

def operators : Level → List BinaryOp
  | or => [.or]
  | and => [.and]
  | comparison => [.lt, .gt, .le, .ge, .eq, .ne]
  | additive => [.add, .sub]
  | multiplicative => [.mul, .div, .mod]

def Spells (l : Level) (t : Token) (op : BinaryOp) : Prop :=
  op ∈ l.operators ∧ t.kind = l.kind ∧ t.lexeme = op.symbol

end Level

def Token.SpellsSign (t : Token) : UnaryOp → Prop
  | .neg => t.kind = .operator ∧ t.lexeme = "-"
  | .not => t.kind = .logic ∧ t.lexeme = "!"
  | .other _ => False

mutual

/-- The tokens are a phrase of the sort given, and the expression is its tree. -/
inductive Derives : Phrase → List Token → Expr → Prop
  | plain {ts : List Token} {e : Expr} (h : Derives (.binary .or) ts e) : Derives .ternary ts e
  | ternary {cs ts fs : List Token} {c t f : Expr} {question colon : Token}
      (hc : Derives (.binary .or) cs c) (hq : question.kind = .question)
      (ht : Derives .ternary ts t) (hk : colon.kind = .colon) (hf : Derives .ternary fs f) :
      Derives .ternary (cs ++ question :: (ts ++ colon :: fs)) (.ternary c t f)
  | operand {l : Level} {ts : List Token} {e : Expr} (h : Derives l.operand ts e) :
      Derives (.binary l) ts e
  | chain {l : Level} {ls rs : List Token} {left right : Expr} {t : Token} {op : BinaryOp}
      (hl : Derives (.binary l) ls left) (ht : l.Spells t op) (hr : Derives l.operand rs right) :
      Derives (.binary l) (ls ++ t :: rs) (.binary op left right)
  | unary {ts : List Token} {e : Expr} {t : Token} {op : UnaryOp} (ht : t.SpellsSign op)
      (h : Derives .unary ts e) : Derives .unary (t :: ts) (.unary op e)
  | unsigned {ts : List Token} {e : Expr} (h : Derives .primary ts e) : Derives .unary ts e
  | number {t : Token} {x : Float} (ht : t.kind = .number)
      (hx : Numeral.decimal? t.lexeme.toList = some x) : Derives .primary [t] (.number x)
  | name {t : Token} (ht : t.kind = .identifier) : Derives .primary [t] (.name t.lexeme)
  | callNone {t left right : Token} (ht : t.kind = .identifier) (hl : left.kind = .leftParen)
      (hr : right.kind = .rightParen) : Derives .primary [t, left, right] (.call t.lexeme [])
  | call {t left right : Token} {ts : List Token} {es : List Expr} (ht : t.kind = .identifier)
      (hl : left.kind = .leftParen) (h : DerivesList ts es) (hr : right.kind = .rightParen) :
      Derives .primary (t :: left :: (ts ++ [right])) (.call t.lexeme es)
  | parens {left right : Token} {ts : List Token} {e : Expr} (hl : left.kind = .leftParen)
      (h : Derives .ternary ts e) (hr : right.kind = .rightParen) :
      Derives .primary (left :: (ts ++ [right])) e

inductive DerivesList : List Token → List Expr → Prop
  | one {ts : List Token} {e : Expr} (h : Derives .ternary ts e) : DerivesList ts [e]
  | more {ts us : List Token} {e : Expr} {es : List Expr} {comma : Token}
      (h : Derives .ternary ts e) (hc : comma.kind = .comma) (hs : DerivesList us es) :
      DerivesList (ts ++ comma :: us) (e :: es)

end

namespace Level

variable {l m : Level} {t : Token} {op : BinaryOp}

theorem Spells.ofSymbol (h : l.Spells t op) : BinaryOp.ofSymbol t.lexeme = op := by
  obtain ⟨hop, -, hsymbol⟩ := h
  rw [hsymbol]
  cases l <;> simp only [operators, List.mem_cons, List.not_mem_nil, or_false] at hop
  all_goals rcases hop with rfl | rfl | rfl | rfl | rfl | rfl <;> rfl

theorem Spells.accepts (h : l.Spells t op) : l.accepts t := by
  obtain ⟨hop, hkind, hsymbol⟩ := h
  cases l <;> simp only [operators, List.mem_cons, List.not_mem_nil, or_false] at hop
  all_goals rcases hop with rfl | rfl | rfl | rfl | rfl | rfl <;>
    simp [Level.accepts, hkind, hsymbol, kind, BinaryOp.symbol]

theorem spells_of_symbol (op : BinaryOp) (hop : op ∈ l.operators) (hk : t.kind = l.kind)
    (hlex : t.lexeme = op.symbol) : l.Spells t (.ofSymbol t.lexeme) := by
  have h : l.Spells t op := ⟨hop, hk, hlex⟩
  rwa [h.ofSymbol]

theorem spells_of_accepts (ht : t.WellFormed) (h : l.accepts t) :
    l.Spells t (.ofSymbol t.lexeme) := by
  cases l <;> simp only [Level.accepts, Bool.and_eq_true, Bool.or_eq_true, decide_eq_true_eq] at h
  case or => exact spells_of_symbol .or (by simp [operators]) h.1 h.2
  case and => exact spells_of_symbol .and (by simp [operators]) h.1 h.2
  case comparison =>
      have hlex := ht.1 h
      simp only [comparators, List.mem_cons, List.not_mem_nil, or_false] at hlex
      rcases hlex with hlex | hlex | hlex | hlex | hlex | hlex
      · exact spells_of_symbol .lt (by simp [operators]) h hlex
      · exact spells_of_symbol .gt (by simp [operators]) h hlex
      · exact spells_of_symbol .le (by simp [operators]) h hlex
      · exact spells_of_symbol .ge (by simp [operators]) h hlex
      · exact spells_of_symbol .eq (by simp [operators]) h hlex
      · exact spells_of_symbol .ne (by simp [operators]) h hlex
  case additive =>
      rcases h with ⟨hk, hlex | hlex⟩
      · exact spells_of_symbol .add (by simp [operators]) hk hlex
      · exact spells_of_symbol .sub (by simp [operators]) hk hlex
  case multiplicative =>
      rcases h with ⟨hk, (hlex | hlex) | hlex⟩
      · exact spells_of_symbol .mul (by simp [operators]) hk hlex
      · exact spells_of_symbol .div (by simp [operators]) hk hlex
      · exact spells_of_symbol .mod (by simp [operators]) hk hlex

/-- No two levels share an operator. -/
theorem accepts_unique (hl : l.accepts t) (hm : m.accepts t) : l = m := by
  cases l <;> cases m <;> simp_all [Level.accepts]
  case additive.multiplicative => rcases hl.2 with h | h <;> simp [h] at hm
  case multiplicative.additive => rcases hm with h | h <;> simp [h] at hl

end Level

namespace Token

variable {t : Token} {op : UnaryOp}

theorem SpellsSign.ofSymbol (h : t.SpellsSign op) : UnaryOp.ofSymbol t.lexeme = op := by
  cases op <;> simp_all [SpellsSign, UnaryOp.ofSymbol]

theorem SpellsSign.isSign (h : t.SpellsSign op) : t.isSign := by
  cases op <;> simp_all [SpellsSign, Token.isSign]

theorem spellsSign_of_isSign (h : t.isSign) : t.SpellsSign (.ofSymbol t.lexeme) := by
  simp only [isSign, Bool.or_eq_true, Bool.and_eq_true, decide_eq_true_eq] at h
  rcases h with ⟨hkind, hlex⟩ | ⟨hkind, hlex⟩ <;> simp [hlex, UnaryOp.ofSymbol, SpellsSign, hkind]

def Starts (t : Token) : Prop :=
  t.kind = .number ∨ t.kind = .identifier ∨ t.kind = .leftParen ∨ t.isSign

theorem Starts.kind_ne (h : t.Starts) : t.kind ≠ .rightParen := by
  rcases h with h | h | h | h <;> simp_all [isSign]
  rcases h with h | h <;> simp [h]

end Token

theorem Derives.starts : ∀ {p : Phrase} {ts : List Token} {e : Expr}, Derives p ts e →
    ∃ t us, ts = t :: us ∧ t.Starts
  | _, _, _, .plain h | _, _, _, .operand h | _, _, _, .unsigned h => h.starts
  | _, _, _, .ternary hc .. => by
      obtain ⟨t, us, rfl, ht⟩ := hc.starts
      exact ⟨t, _, rfl, ht⟩
  | _, _, _, .chain hl .. => by
      obtain ⟨t, us, rfl, ht⟩ := hl.starts
      exact ⟨t, _, rfl, ht⟩
  | _, _, _, .unary ht _ => ⟨_, _, rfl, .inr (.inr (.inr ht.isSign))⟩
  | _, _, _, .number ht _ => ⟨_, _, rfl, .inl ht⟩
  | _, _, _, .name ht | _, _, _, .callNone ht .. | _, _, _, .call ht .. =>
      ⟨_, _, rfl, .inr (.inl ht)⟩
  | _, _, _, .parens hl .. => ⟨_, _, rfl, .inr (.inr (.inl hl))⟩

theorem Level.Spells.kind_ne {l : Level} {t : Token} {op : BinaryOp} (h : l.Spells t op) :
    t.kind ≠ .finish := by
  rw [h.2.1]
  cases l <;> simp [Level.kind]

theorem Token.SpellsSign.kind_ne {t : Token} {op : UnaryOp} (h : t.SpellsSign op) :
    t.kind ≠ .finish := by
  cases op <;> simp_all [SpellsSign]

mutual

theorem Derives.kind_ne : ∀ {p : Phrase} {ts : List Token} {e : Expr}, Derives p ts e →
    ∀ t ∈ ts, t.kind ≠ .finish
  | _, _, _, .plain h | _, _, _, .operand h | _, _, _, .unsigned h => h.kind_ne
  | _, _, _, .ternary hc hq ht hk hf => by
      simpa [or_imp, forall_and, hq, hk] using ⟨hc.kind_ne, ht.kind_ne, hf.kind_ne⟩
  | _, _, _, .chain hl ht hr => by
      simpa [or_imp, forall_and, ht.kind_ne] using ⟨hl.kind_ne, hr.kind_ne⟩
  | _, _, _, .unary ht h => by simpa [ht.kind_ne] using h.kind_ne
  | _, _, _, .number ht _ | _, _, _, .name ht => by simp [ht]
  | _, _, _, .callNone ht hl hr => by simp [ht, hl, hr]
  | _, _, _, .call ht hl h hr => by simpa [or_imp, forall_and, ht, hl, hr] using h.kind_ne
  | _, _, _, .parens hl h hr => by simpa [or_imp, forall_and, hl, hr] using h.kind_ne

theorem DerivesList.kind_ne : ∀ {ts : List Token} {es : List Expr}, DerivesList ts es →
    ∀ t ∈ ts, t.kind ≠ .finish
  | _, _, .one h => h.kind_ne
  | _, _, .more h hc hs => by simpa [or_imp, forall_and, hc] using ⟨h.kind_ne, hs.kind_ne⟩

end

end Skirmish.Formula

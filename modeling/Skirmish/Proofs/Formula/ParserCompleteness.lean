import Mathlib.Order.Filter.AtTopBot.Basic
import Skirmish.Proofs.Formula.ParserFuel

namespace Skirmish.Formula

variable {α : Type}

/-- With enough fuel the computation finds the value. -/
def Found (f : Nat → Result α) (a : α) : Prop := ∀ᶠ fuel in Filter.atTop, f fuel = .ok a

theorem found_of_succ {f : Nat → Result α} {a : α}
    (h : Found (fun fuel => f (fuel + 1)) a) : Found f a := by
  obtain ⟨n, hn⟩ := Filter.eventually_atTop.1 h
  refine Filter.eventually_atTop.2 ⟨n + 1, fun m hm => ?_⟩
  obtain ⟨k, rfl⟩ := Nat.exists_eq_add_of_le' (Nat.one_le_of_lt hm)
  exact hn k (Nat.le_of_succ_le_succ hm)

@[simp] theorem current_cons (t : Token) (ts : List Token) : current (t :: ts) = t := rfl

def Phrase.read : Phrase → Nat → List Token → Result (Expr × List Token)
  | .ternary, fuel, ts => Formula.ternary fuel ts
  | .binary l, fuel, ts => Formula.binary fuel l ts
  | .unary, fuel, ts => Formula.unary fuel ts
  | .primary, fuel, ts => Formula.primary fuel ts

theorem operand_succ (fuel : Nat) (l : Level) (ts : List Token) :
    operand (fuel + 1) l ts = l.operand.read fuel ts := by
  cases l <;> rfl

/-- The token does not belong to a phrase that stands before it. -/
def Phrase.Ends : Phrase → Token → Prop
  | .ternary, t =>
      t.kind ≠ .leftParen ∧ (∀ m : Level, m.accepts t = false) ∧ t.kind ≠ .question
  | .binary l, t =>
      t.kind ≠ .leftParen ∧ ∀ m : Level, m.descent ≤ l.descent → m.accepts t = false
  | .unary, t | .primary, t => t.kind ≠ .leftParen

theorem accepts_eq_false {t : Token} (ho : t.kind ≠ .operator) (hc : t.kind ≠ .comparator)
    (hl : t.kind ≠ .logic) (m : Level) : m.accepts t = false := by
  cases m <;> simp [Level.accepts, ho, hc, hl]

variable {l : Level} {t : Token} {rest : List Token}

theorem Phrase.ends_ternary (hk : t.kind = .colon ∨ t.kind = .comma ∨ t.kind = .rightParen ∨
    t.kind = .finish) : Phrase.ternary.Ends t := by
  refine ⟨?_, accepts_eq_false ?_ ?_ ?_, ?_⟩ <;> rcases hk with h | h | h | h <;> simp [h]

theorem Phrase.Ends.or (h : Phrase.ternary.Ends t) : (Phrase.binary .or).Ends t :=
  ⟨h.1, fun m _ => h.2.1 m⟩

theorem Phrase.ends_of_question (hk : t.kind = .question) : (Phrase.binary .or).Ends t := by
  refine ⟨by simp [hk], fun m _ => ?_⟩
  exact accepts_eq_false (by simp [hk]) (by simp [hk]) (by simp [hk]) m

theorem Phrase.Ends.operand (h : (Phrase.binary l).Ends t) : l.operand.Ends t := by
  cases l <;> first
    | exact h.1
    | exact ⟨h.1, fun m hm => h.2 m (hm.trans (by decide))⟩

theorem Level.Spells.ends {op : BinaryOp} (h : l.Spells t op) : l.operand.Ends t := by
  have hk : t.kind ≠ .leftParen := by rw [h.2.1]; cases l <;> simp [Level.kind]
  have hm (m : Level) (hm : m.descent < l.descent) : m.accepts t = false := by
    rw [Bool.eq_false_iff]
    intro hacc
    rw [Level.accepts_unique hacc h.accepts] at hm
    exact lt_irrefl _ hm
  cases l <;> first
    | exact hk
    | exact ⟨hk, fun m hle => hm m (lt_of_le_of_lt hle (by decide))⟩

/-- A phrase is read off the front of every list where it ends. At a binary level more operators
may follow: reading goes on as after the first operand. -/
def Complete : Phrase → List Token → Expr → Prop
  | .binary l, ts, e => ∀ rest r, l.operand.Ends (current rest) →
      Found (fun n => chain n l e rest) r → Found (fun n => binary n l (ts ++ rest)) r
  | p, ts, e => ∀ rest, p.Ends (current rest) → Found (fun n => p.read n (ts ++ rest)) (e, rest)

theorem found_chain (e : Expr) (h : (Phrase.binary l).Ends (current rest)) :
    Found (fun n => chain n l e rest) (e, rest) := by
  refine found_of_succ (Filter.Eventually.of_forall fun n => ?_)
  simp [Formula.chain, h.2 l le_rfl]

theorem Complete.found {p : Phrase} {ts : List Token} {e : Expr} (h : Complete p ts e)
    (rest : List Token) (hend : p.Ends (current rest)) :
    Found (fun n => p.read n (ts ++ rest)) (e, rest) := by
  cases p with
  | binary l => exact h rest (e, rest) hend.operand (found_chain e hend)
  | ternary | unary | primary => exact h rest hend

variable {ts us vs : List Token} {c d e : Expr} {es : List Expr} {left right : Token}

theorem Complete.found_operand (h : Complete l.operand ts e)
    (rest : List Token) (hend : l.operand.Ends (current rest)) :
    Found (fun n => operand n l (ts ++ rest)) (e, rest) :=
  found_of_succ (by simpa only [operand_succ] using h.found rest hend)

theorem complete_plain (h : Complete (.binary .or) ts e) : Complete .ternary ts e := by
  intro rest hend
  have hor := h.found rest hend.or
  refine found_of_succ ?_
  filter_upwards [hor] with n hor
  simp only [Phrase.read] at hor ⊢
  simp [Formula.ternary, hor, hend.2.2]

theorem complete_ternary (hc : Complete (.binary .or) ts c) (hl : left.kind = .question)
    (hd : Complete .ternary us d) (hr : right.kind = .colon) (he : Complete .ternary vs e) :
    Complete .ternary (ts ++ left :: (us ++ right :: vs)) (.ternary c d e) := by
  intro rest hend
  have hor := hc.found (left :: (us ++ right :: (vs ++ rest))) (Phrase.ends_of_question hl)
  have htrue := hd.found (right :: (vs ++ rest)) (Phrase.ends_ternary (.inl hr))
  have hfalse := he.found rest hend
  refine found_of_succ ?_
  filter_upwards [hor, htrue, hfalse] with n hor htrue hfalse
  simp only [Phrase.read] at hor htrue hfalse ⊢
  simp [Formula.ternary, hor, htrue, hfalse, hl, hr, expect]

theorem complete_operand (h : Complete l.operand ts e) : Complete (.binary l) ts e := by
  intro rest r hend hchain
  have hop := h.found_operand rest hend
  refine found_of_succ ?_
  filter_upwards [hop, hchain] with n hop hchain
  simp [Formula.binary, hop, hchain]

theorem complete_chain {op : BinaryOp} (hleft : Complete (.binary l) ts d) (ht : l.Spells t op)
    (hright : Complete l.operand us e) :
    Complete (.binary l) (ts ++ t :: us) (.binary op d e) := by
  intro rest r hend hchain
  have hop := hright.found_operand rest hend
  have hnext : Found (fun n => chain n l d (t :: (us ++ rest))) r := by
    refine found_of_succ ?_
    filter_upwards [hop, hchain] with n hop hchain
    simp [Formula.chain, ht.accepts, ht.ofSymbol, hop, hchain]
  simpa using hleft (t :: (us ++ rest)) r ht.ends hnext

theorem complete_unary {op : UnaryOp} (ht : t.SpellsSign op) (h : Complete .unary ts e) :
    Complete .unary (t :: ts) (.unary op e) := by
  intro rest hend
  have hread := h.found rest hend
  refine found_of_succ ?_
  filter_upwards [hread] with n hread
  simp only [Phrase.read] at hread ⊢
  simp [Formula.unary, ht.isSign, ht.ofSymbol, hread]

theorem isSign_eq_false (hk : t.kind = .number ∨ t.kind = .identifier ∨ t.kind = .leftParen) :
    t.isSign = false := by
  rcases hk with h | h | h <;> simp [Token.isSign, h]

theorem Derives.primary_starts (h : Derives .primary ts e) :
    ∃ t us, ts = t :: us ∧ t.isSign = false := by
  cases h with
  | number ht hx => exact ⟨_, _, rfl, isSign_eq_false (.inl ht)⟩
  | name ht => exact ⟨_, _, rfl, isSign_eq_false (.inr (.inl ht))⟩
  | callNone ht hl hr => exact ⟨_, _, rfl, isSign_eq_false (.inr (.inl ht))⟩
  | call ht hl h hr => exact ⟨_, _, rfl, isSign_eq_false (.inr (.inl ht))⟩
  | parens hl h hr => exact ⟨_, _, rfl, isSign_eq_false (.inr (.inr hl))⟩

theorem complete_unsigned (hd : Derives .primary ts e) (h : Complete .primary ts e) :
    Complete .unary ts e := by
  intro rest hend
  have hread := h.found (rest) hend
  obtain ⟨t, us, rfl, hsign⟩ := hd.primary_starts
  refine found_of_succ ?_
  filter_upwards [hread] with n hread
  simp only [Phrase.read, List.cons_append] at hread ⊢
  simp [Formula.unary, hsign, hread]

theorem complete_number {x : Float} (ht : t.kind = .number)
    (hx : Numeral.decimal? t.lexeme.toList = some x) : Complete .primary [t] (.number x) := by
  intro rest hend
  refine found_of_succ (Filter.Eventually.of_forall fun n => ?_)
  simp [Phrase.read, Formula.primary, ht, Token.value, hx]

theorem complete_name (ht : t.kind = .identifier) : Complete .primary [t] (.name t.lexeme) := by
  intro rest hend
  have hne : (current rest).kind ≠ .leftParen := hend
  refine found_of_succ (Filter.Eventually.of_forall fun n => ?_)
  simp [Phrase.read, Formula.primary, ht, hne]

theorem complete_callNone (ht : t.kind = .identifier) (hl : left.kind = .leftParen)
    (hr : right.kind = .rightParen) : Complete .primary [t, left, right] (.call t.lexeme []) := by
  intro rest hend
  have hargs : Found (fun n => arguments n (right :: rest)) ([], rest) := by
    refine found_of_succ (Filter.Eventually.of_forall fun n => ?_)
    simp [Formula.arguments, hr]
  refine found_of_succ ?_
  filter_upwards [hargs] with n hargs
  simp [Phrase.read, Formula.primary, ht, hl, hargs]

def items (fuel : Nat) (ts : List Token) : Result (List Expr × List Token) := do
  let (first, rest) ← ternary fuel ts
  let (others, rest) ← moreArguments fuel rest
  return (first :: others, rest)

def CompleteList (ts : List Token) (es : List Expr) : Prop :=
  ∀ close rest, close.kind = .rightParen →
    Found (fun n => items n (ts ++ close :: rest)) (es, rest)

theorem complete_one (h : Complete .ternary ts e) : CompleteList ts [e] := by
  intro close rest hk
  have hfirst := h.found (close :: rest) (Phrase.ends_ternary (by simp [hk]))
  have hmore : Found (fun n => moreArguments n (close :: rest)) ([], rest) := by
    refine found_of_succ (Filter.Eventually.of_forall fun n => ?_)
    simp [Formula.moreArguments, hk, expect]
  filter_upwards [hfirst, hmore] with n hfirst hmore
  simp only [Phrase.read] at hfirst
  simp [items, hfirst, hmore]

theorem complete_more {comma : Token} (h : Complete .ternary ts e) (hc : comma.kind = .comma)
    (hs : CompleteList us es) : CompleteList (ts ++ comma :: us) (e :: es) := by
  intro close rest hk
  have hfirst := h.found (comma :: (us ++ close :: rest))
    (Phrase.ends_ternary (by simp [hc]))
  have hmore : Found (fun n => moreArguments n (comma :: (us ++ close :: rest))) (es, rest) := by
    refine found_of_succ ?_
    filter_upwards [hs close rest hk] with n hitems
    rw [Formula.moreArguments]
    simpa [hc, items] using hitems
  filter_upwards [hfirst, hmore] with n hfirst hmore
  simp only [Phrase.read] at hfirst
  simp [items, hfirst, hmore]

theorem complete_call (ht : t.kind = .identifier) (hl : left.kind = .leftParen)
    (hstart : ∃ u vs, ts = u :: vs ∧ u.Starts) (h : CompleteList ts es)
    (hr : right.kind = .rightParen) :
    Complete .primary (t :: left :: (ts ++ [right])) (.call t.lexeme es) := by
  intro rest hend
  have hargs : Found (fun n => arguments n (ts ++ right :: rest)) (es, rest) := by
    refine found_of_succ ?_
    filter_upwards [h right rest hr] with n hitems
    obtain ⟨u, vs, rfl, hu⟩ := hstart
    rw [Formula.arguments]
    simpa [hu.kind_ne, items] using hitems
  refine found_of_succ ?_
  filter_upwards [hargs] with n hargs
  simp [Phrase.read, Formula.primary, ht, hl, hargs]

theorem complete_parens (hl : left.kind = .leftParen) (h : Complete .ternary ts e)
    (hr : right.kind = .rightParen) : Complete .primary (left :: (ts ++ [right])) e := by
  intro rest hend
  have hread := h.found (right :: rest) (Phrase.ends_ternary (by simp [hr]))
  refine found_of_succ ?_
  filter_upwards [hread] with n hread
  simp only [Phrase.read] at hread ⊢
  simp [Formula.primary, hl, hread, expect, hr]

theorem DerivesList.starts (h : DerivesList ts es) : ∃ t us, ts = t :: us ∧ t.Starts := by
  cases h with
  | one h => exact h.starts
  | more h hc hs =>
      obtain ⟨t, us, rfl, ht⟩ := h.starts
      exact ⟨t, _, rfl, ht⟩

mutual

theorem Derives.complete : ∀ {p : Phrase} {ts : List Token} {e : Expr}, Derives p ts e →
    Complete p ts e
  | _, _, _, .plain h => complete_plain h.complete
  | _, _, _, .ternary hc hl hd hr he => complete_ternary hc.complete hl hd.complete hr he.complete
  | _, _, _, .operand h => complete_operand h.complete
  | _, _, _, .chain hl ht hr => complete_chain hl.complete ht hr.complete
  | _, _, _, .unary ht h => complete_unary ht h.complete
  | _, _, _, .unsigned h => complete_unsigned h h.complete
  | _, _, _, .number ht hx => complete_number ht hx
  | _, _, _, .name ht => complete_name ht
  | _, _, _, .callNone ht hl hr => complete_callNone ht hl hr
  | _, _, _, .call ht hl h hr => complete_call ht hl h.starts h.complete hr
  | _, _, _, .parens hl h hr => complete_parens hl h.complete hr

theorem DerivesList.complete : ∀ {ts : List Token} {es : List Expr}, DerivesList ts es →
    CompleteList ts es
  | _, _, .one h => complete_one h.complete
  | _, _, .more h hc hs => complete_more h.complete hc hs.complete

end

variable {body : List Token} {last : Token}

theorem Ended.wellFormed (h : Ended ts body last) : WellFormed ts := by
  intro t ht
  rw [h.eq, List.mem_append, List.mem_singleton] at ht
  rcases ht with ht | rfl
  · exact h.body_wellFormed t ht
  · exact Token.wellFormed_of_kind (by simp [h.last_kind]) (by simp [h.last_kind])

theorem parseTokens_of_derives (hts : Ended ts body last) (h : Derives .ternary body e) :
    parseTokens ts = .ok e := by
  have hend : Phrase.ternary.Ends (current [last]) :=
    Phrase.ends_ternary (.inr (.inr (.inr hts.last_kind)))
  obtain ⟨n, hn⟩ := Filter.eventually_atTop.1 (h.complete.found [last] hend)
  have hread : ternary n ts = .ok (e, [last]) := by
    rw [hts.eq]
    exact hn n le_rfl
  simp [parseTokens, ternary_eq_of_eq_ok hts.wellFormed hread, expect, hts.last_kind]

theorem Ended.front_eq {front rest : List Token} (h : Ended ts body last) (hts : ts = front ++ rest)
    (hfront : ∀ t ∈ front, t.kind ≠ .finish) (hrest : (current rest).kind = .finish) :
    front = body := by
  rw [h.eq] at hts
  rcases List.append_eq_append_iff.1 hts with ⟨more, rfl, hlast⟩ | ⟨more, rfl, rfl⟩
  · cases more with
    | nil => simp
    | cons t more =>
        simp only [List.cons_append, List.cons.injEq] at hlast
        exact absurd h.last_kind (hfront last (by simp [hlast.1]))
  · cases more with
    | nil => simp
    | cons t more => exact absurd hrest (h.body_kind t (by simp))

theorem derives_of_parseTokens (hts : Ended ts body last) (h : parseTokens ts = .ok e) :
    Derives .ternary body e := by
  simp only [parseTokens, Fallible.bind_eq_ok, Prod.exists] at h
  obtain ⟨e', rest, hread, rest', hfinish, h⟩ := h
  obtain rfl : e' = e := by simpa using h
  obtain ⟨front, hfront, d⟩ := (sound _).ternary hts.wellFormed hread
  have hrest : (current rest).kind = .finish := by
    by_contra hne
    simp [expect, hne] at hfinish
  rwa [hts.front_eq hfront d.kind_ne hrest] at d

/-- The parser accepts exactly the token lists of the grammar, each with its one tree. -/
theorem parseTokens_eq_ok_iff_derives {formula : String} (h : tokenize formula = .ok ts) :
    ∃ body last, ts = body ++ [last] ∧ last.kind = .finish ∧ (∀ t ∈ body, t.kind ≠ .finish) ∧
      (∀ e, parseTokens ts = .ok e ↔ Derives .ternary body e) ∧
      ∀ d e, Derives .ternary body d → Derives .ternary body e → d = e := by
  obtain ⟨body, last, hts⟩ := tokenize_ended h
  refine ⟨body, last, hts.eq, hts.last_kind, hts.body_kind, ?_, ?_⟩
  · exact fun e => ⟨derives_of_parseTokens hts, parseTokens_of_derives hts⟩
  · intro d e hd he
    have hparse := parseTokens_of_derives hts hd
    rw [parseTokens_of_derives hts he] at hparse
    simpa using hparse.symm

theorem parseTokens_eq_ok_iff_derives_call :
    ∃ ts, tokenize "low ? f(hp, -2) : 1 - 2 * 3" = .ok ts ∧
      ∃ body last, ts = body ++ [last] ∧ last.kind = .finish ∧ (∀ t ∈ body, t.kind ≠ .finish) ∧
        (∀ e, parseTokens ts = .ok e ↔ Derives .ternary body e) ∧
        ∀ d e, Derives .ternary body d → Derives .ternary body e → d = e := by
  have hok : (tokenize "low ? f(hp, -2) : 1 - 2 * 3").isOk = true := by decide +kernel
  obtain ⟨ts, hts⟩ := Fallible.exists_eq_ok hok
  exact ⟨ts, hts, parseTokens_eq_ok_iff_derives hts⟩

end Skirmish.Formula

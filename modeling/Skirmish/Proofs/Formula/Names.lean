import Mathlib.Data.List.Induction
import Skirmish.Proofs.Formula.ParserCompleteness
import Skirmish.Proofs.Table

namespace Skirmish.Formula

/-- The identifiers that no opening parenthesis follows. -/
def uncalled : List Token → List String
  | [] => []
  | t :: ts =>
    if t.kind = .identifier ∧ (current ts).kind ≠ .leftParen then t.lexeme :: uncalled ts
    else uncalled ts

/-- Before anything but an opening parenthesis the tokens bring in these names. -/
def Carries (ts : List Token) (names : List String) : Prop :=
  ∀ rest, (current rest).kind ≠ .leftParen → uncalled (ts ++ rest) = names ++ uncalled rest

namespace Carries

variable {ts us : List Token} {t left right : Token} {names more : List String}

theorem nil : Carries [] [] := fun _ _ => rfl

theorem identifier (ht : t.kind = .identifier) : Carries [t] [t.lexeme] := by
  intro rest hrest
  simp [uncalled, ht, hrest]

theorem mark (ht : t.kind ≠ .identifier) (h : Carries ts names) : Carries (t :: ts) names := by
  intro rest hrest
  simp [uncalled, ht, h rest hrest]

theorem split (h : Carries ts names) (ht : t.kind ≠ .leftParen ∧ t.kind ≠ .identifier)
    (hs : Carries us more) : Carries (ts ++ t :: us) (names ++ more) := by
  intro rest hrest
  have hfront := h (t :: us ++ rest) ht.1
  rw [hs.mark ht.2 rest hrest] at hfront
  simpa using hfront

theorem enclosed (hl : left.kind = .leftParen) (h : Carries ts names)
    (hr : right.kind = .rightParen) : Carries (left :: (ts ++ [right])) names := by
  have hinner : Carries (ts ++ [right]) names := by
    simpa using h.split (by simp [hr]) .nil
  exact hinner.mark (by simp [hl])

theorem called (hl : left.kind = .leftParen) (h : Carries (left :: ts) names) :
    Carries (t :: left :: ts) names := by
  intro rest hrest
  have hfront := h rest hrest
  simpa [uncalled, hl] using hfront

end Carries

theorem Level.Spells.splits {l : Level} {t : Token} {op : BinaryOp} (h : l.Spells t op) :
    t.kind ≠ .leftParen ∧ t.kind ≠ .identifier := by
  rw [h.2.1]
  cases l <;> simp [Level.kind]

theorem Token.SpellsSign.ne_identifier {t : Token} {op : UnaryOp} (h : t.SpellsSign op) :
    t.kind ≠ .identifier := by
  cases op <;> simp_all [SpellsSign]

mutual

theorem Derives.carries : ∀ {p : Phrase} {ts : List Token} {e : Expr}, Derives p ts e →
    Carries ts e.names
  | _, _, _, .plain h | _, _, _, .operand h | _, _, _, .unsigned h => h.carries
  | _, _, _, .ternary hc hq ht hk hf => by
      rw [Expr.names, List.append_assoc]
      apply hc.carries.split (by simp [hq])
      exact ht.carries.split (by simp [hk]) hf.carries
  | _, _, _, .chain hl ht hr => hl.carries.split ht.splits hr.carries
  | _, _, _, .unary ht h => h.carries.mark ht.ne_identifier
  | _, _, _, .number ht _ => Carries.nil.mark (by simp [ht])
  | _, _, _, .name ht => .identifier ht
  | _, _, _, .callNone _ hl hr => .called hl (.enclosed hl .nil hr)
  | _, _, _, .call _ hl h hr => .called hl (.enclosed hl h.carries hr)
  | _, _, _, .parens hl h hr => .enclosed hl h.carries hr

theorem DerivesList.carries : ∀ {ts : List Token} {es : List Expr}, DerivesList ts es →
    Carries ts (Expr.namesOf es)
  | _, _, .one h => by simpa [Expr.namesOf] using h.carries
  | _, _, .more h hc hs => h.carries.split (by simp [hc]) hs.carries

end

variable {e : Expr} {formula : String} {n : String}

theorem foldl_eq_eraseDups (ns : List String) :
    ns.foldl (fun found n => if found.contains n then found else found ++ [n]) [] =
      ns.eraseDups := by
  induction ns using List.reverseRecOn with
  | nil => rfl
  | append_singleton ns n ih =>
      rw [List.foldl_append, ih, eraseDups_concat]
      simp

theorem Expr.distinctNames_eq (e : Expr) : e.distinctNames = e.names.eraseDups :=
  foldl_eq_eraseDups e.names

theorem Expr.mem_distinctNames : n ∈ e.distinctNames ↔ n ∈ e.names := by
  rw [distinctNames_eq, List.mem_eraseDups]

/-- The names of a formula are the identifiers of its tokens that call no function, each at the
place where it comes first. -/
theorem distinctNames_eq_uncalled (h : parse formula = .ok e) :
    ∃ ts, tokenize formula = .ok ts ∧ e.distinctNames = (uncalled ts).eraseDups := by
  obtain ⟨ts, hts, hparse⟩ := Fallible.bind_eq_ok.1 h
  obtain ⟨body, last, hended⟩ := tokenize_ended hts
  have hderives := derives_of_parseTokens hended hparse
  have hnames := hderives.carries [last] (by simp [hended.last_kind])
  have hlast : uncalled [last] = [] := by simp [uncalled, hended.last_kind]
  rw [← hended.eq, hlast, List.append_nil] at hnames
  refine ⟨ts, hts, ?_⟩
  rw [e.distinctNames_eq, hnames]

theorem distinctNames_eq_uncalled_clamp :
    ∃ e, parse "hp < max(hp, boss.hp) ? -x : hp (2)" = .ok e ∧
      ∃ ts, tokenize "hp < max(hp, boss.hp) ? -x : hp (2)" = .ok ts ∧
        e.distinctNames = (uncalled ts).eraseDups := by
  have hok : (parse "hp < max(hp, boss.hp) ? -x : hp (2)").isOk = true := by decide +kernel
  obtain ⟨e, he⟩ := Fallible.exists_eq_ok hok
  exact ⟨e, he, distinctNames_eq_uncalled he⟩

end Skirmish.Formula
